import BerzCoin.P2pPeer

/-! What the read loop delivers of a stream of messages. It keeps the frame exactly where no read
for a payload goes beyond the payload. -/
namespace BerzCoin
open ChunkedReader

namespace Peer

/-! The sizes of the reads for one payload. `missing` values of the payload are still to come and
`behind` values stand after it; `none` is a read beyond the payload. -/

/-- The reads after a short chunk of `size` values. -/
def toppedUp (minRead chunkBudget behind : ℕ) : ℕ → ℕ → ℕ → (ℕ → ℕ) → Option (ℕ × (ℕ → ℕ))
  | 0, _, missing, cuts => some (missing, cuts)
  | fuel + 1, size, missing, cuts =>
    if minRead ≤ size then some (missing, cuts)
    else
      let more := min (min chunkBudget (cuts 0 + 1)) (missing + behind)
      if missing = 0 ∨ missing < more then none
      else if chunkBudget ≤ size + more then some (missing - more, later cuts)
      else toppedUp minRead chunkBudget behind fuel (size + more) (missing - more) (later cuts)

def payloadReads (minRead behind : ℕ) : ℕ → ℕ → (ℕ → ℕ) → Option (ℕ → ℕ)
  | 0, _, cuts => some cuts
  | fuel + 1, missing, cuts =>
    if missing = 0 then some cuts
    else
      let chunkBudget := min 65536 missing
      let size := min chunkBudget (cuts 0 + 1)
      match toppedUp minRead chunkBudget behind minRead size (missing - size) (later cuts) with
      | none => none
      | some (missing, cuts) => payloadReads minRead behind fuel missing cuts

/-- The bytes of messages with payloads of these sizes. -/
def streamLength : List ℕ → ℕ
  | [] => 0
  | size :: sizes => 24 + size + streamLength sizes

/-- No read for a payload goes beyond the payload. -/
def ReadsWithin (minRead : ℕ) : List ℕ → (ℕ → ℕ) → Prop
  | [], _ => True
  | size :: sizes, cuts =>
    match payloadReads minRead (streamLength sizes) size size cuts with
    | none => False
    | some cuts => ReadsWithin minRead sizes cuts

section reads
variable {minRead chunkBudget behind missing missing' total fuel : ℕ} {chunk rest buf out : Bytes}
  {r r₁ r' : ChunkedReader UInt8} {cuts' : ℕ → ℕ}

lemma awaitProgress_succ (hread : r.read chunkBudget = (rest, r₁)) :
    awaitProgress minRead chunkBudget (fuel + 1) chunk r =
      if minRead ≤ chunk.length then (some chunk, r)
      else if rest = [] then (none, r₁)
      else if chunkBudget ≤ (chunk ++ rest).length then (some (chunk ++ rest), r₁)
      else awaitProgress minRead chunkBudget fuel (chunk ++ rest) r₁ := by
  rw [awaitProgress, hread]

lemma toppedUp_succ (hread : r.read chunkBudget = (rest, r₁))
    (hlen : r.data.length = missing + behind) :
    toppedUp minRead chunkBudget behind (fuel + 1) chunk.length missing r.cuts =
      if minRead ≤ chunk.length then some (missing, r.cuts)
      else if missing = 0 ∨ missing < rest.length then none
      else if chunkBudget ≤ (chunk ++ rest).length then some (missing - rest.length, r₁.cuts)
      else toppedUp minRead chunkBudget behind fuel (chunk ++ rest).length (missing - rest.length)
        r₁.cuts := by
  rw [toppedUp, List.length_append, read_cuts hread, read_length hread, hlen]

lemma read_lengths (hread : r.read chunkBudget = (rest, r₁)) :
    r.data.length = rest.length + r₁.data.length := by
  rw [read_append hread, List.length_append]

/-- Nothing is handed out at the end of the stream only. -/
lemma read_eq_nil (hread : r.read chunkBudget = (rest, r₁)) (hpos : 0 < chunkBudget)
    (hnil : rest = []) : r.data.length = 0 := by
  have hsize := read_length hread
  rw [hnil, List.length_nil] at hsize
  omega

/-- Reading hands out a part of the stream in order. -/
lemma awaitProgress_append (h : awaitProgress minRead chunkBudget fuel chunk r = (some out, r')) :
    chunk ++ r.data = out ++ r'.data := by
  induction fuel generalizing chunk r with
  | zero =>
    cases h
    rfl
  | succ fuel ih =>
    rcases hread : r.read chunkBudget with ⟨rest, r₁⟩
    rw [awaitProgress_succ hread] at h
    split_ifs at h with hmin hnil hbudget
    · cases h
      rfl
    · cases h
    · cases h
      rw [read_append hread, List.append_assoc]
    · rw [← ih h, read_append hread, List.append_assoc]

lemma awaitProgress_length_le :
    (awaitProgress minRead chunkBudget fuel chunk r).2.data.length ≤ r.data.length := by
  induction fuel generalizing chunk r with
  | zero => exact Nat.le_refl _
  | succ fuel ih =>
    rcases hread : r.read chunkBudget with ⟨rest, r₁⟩
    have hlengths := read_lengths hread
    rw [awaitProgress_succ hread]
    split_ifs with hmin hnil hbudget
    · exact Nat.le_refl _
    · simp only
      omega
    · simp only
      omega
    · have hle := @ih (chunk ++ rest) r₁
      omega

/-- Without a read beyond the payload the bytes come from the payload. -/
lemma awaitProgress_within (hpos : 0 < chunkBudget) (hlen : r.data.length = missing + behind)
    (h : toppedUp minRead chunkBudget behind fuel chunk.length missing r.cuts = some (missing', cuts')) :
    ∃ got, awaitProgress minRead chunkBudget fuel chunk r =
        (some (chunk ++ r.data.take got), ⟨r.data.drop got, cuts'⟩) ∧ got + missing' = missing := by
  induction fuel generalizing chunk missing r with
  | zero =>
    cases h
    exact ⟨0, by simp [awaitProgress], by omega⟩
  | succ fuel ih =>
    rcases hread : r.read chunkBudget with ⟨rest, r₁⟩
    have happend := read_append hread
    have hlengths := read_lengths hread
    have hnil := read_eq_nil hread hpos
    rw [toppedUp_succ hread hlen] at h
    rw [awaitProgress_succ hread]
    split_ifs at h with hmin hbeyond hbudget
    · cases h
      exact ⟨0, by simp [hmin], by omega⟩
    · have hempty : rest ≠ [] := by
        intro hempty
        have hzero := hnil hempty
        omega
      cases h
      refine ⟨rest.length, ?_, by omega⟩
      rw [if_neg hmin, if_neg hempty, if_pos hbudget, happend, List.take_left, List.drop_left]
    · have hempty : rest ≠ [] := by
        intro hempty
        have hzero := hnil hempty
        omega
      obtain ⟨got, hawait, hgot⟩ := ih (by omega) h
      refine ⟨rest.length + got, ?_, by omega⟩
      rw [if_neg hmin, if_neg hempty, if_neg hbudget, hawait, happend, List.take_length_add_append,
        List.drop_length_add_append, List.append_assoc]

/-- After a read beyond the payload a part of what follows is lost. -/
lemma awaitProgress_beyond (hlen : r.data.length = missing + behind)
    (h : toppedUp minRead chunkBudget behind fuel chunk.length missing r.cuts = none)
    (hout : awaitProgress minRead chunkBudget fuel chunk r = (some out, r')) :
    r'.data.length < behind := by
  induction fuel generalizing chunk missing r with
  | zero => cases h
  | succ fuel ih =>
    rcases hread : r.read chunkBudget with ⟨rest, r₁⟩
    have hlengths := read_lengths hread
    rw [toppedUp_succ hread hlen] at h
    rw [awaitProgress_succ hread] at hout
    split_ifs at h hout with hmin hbeyond hempty hbudget
    · cases hout
    · cases hout
      have hpos' := List.length_pos_iff.2 hempty
      omega
    · have hpos' := List.length_pos_iff.2 hempty
      have hle := @awaitProgress_length_le minRead chunkBudget fuel (chunk ++ rest) r₁
      rw [hout] at hle
      simp only at hle
      omega
    · cases hout
    · exact ih (by omega) h hout

lemma readRounds_succ (hread : r.read (min 65536 (total - buf.length)) = (chunk, r₁)) :
    readRounds minRead total (fuel + 1) buf r =
      if total ≤ buf.length then (some buf, r)
      else if chunk = [] then (none, r₁)
      else
        match awaitProgress minRead (min 65536 (total - buf.length)) minRead chunk r₁ with
        | (none, r) => (none, r)
        | (some chunk, r) => readRounds minRead total fuel (buf ++ chunk) r := by
  rcases hout : awaitProgress minRead (min 65536 (total - buf.length)) minRead chunk r₁ with
    ⟨_ | more, r₂⟩
  · simp only [readRounds, hread, hout]
  · simp only [readRounds, hread, hout]

lemma payloadReads_succ (hread : r.read (min 65536 missing) = (chunk, r₁))
    (hlen : r.data.length = missing + behind) :
    payloadReads minRead behind (fuel + 1) missing r.cuts =
      if missing = 0 then some r.cuts
      else
        match toppedUp minRead (min 65536 missing) behind minRead chunk.length
            (missing - chunk.length) r₁.cuts with
        | none => none
        | some (missing, cuts) => payloadReads minRead behind fuel missing cuts := by
  have hsize : chunk.length = min (min 65536 missing) (r.cuts 0 + 1) := by
    rw [read_length hread]
    omega
  rw [payloadReads, hsize, read_cuts hread]

lemma readRounds_length_le :
    (readRounds minRead total fuel buf r).2.data.length ≤ r.data.length := by
  induction fuel generalizing buf r with
  | zero => exact Nat.le_refl _
  | succ fuel ih =>
    rcases hread : r.read (min 65536 (total - buf.length)) with ⟨chunk, r₁⟩
    have hlengths := read_lengths hread
    have hle := @awaitProgress_length_le minRead (min 65536 (total - buf.length)) minRead chunk r₁
    rw [readRounds_succ hread]
    split_ifs with hdone hempty
    · exact Nat.le_refl _
    · simp only
      omega
    · rcases hawait : awaitProgress minRead (min 65536 (total - buf.length)) minRead chunk r₁ with ⟨got, r₂⟩
      rw [hawait] at hle
      cases got with
      | none =>
        simp only at hle ⊢
        omega
      | some got =>
        have hrest := @ih (buf ++ got) r₂
        simp only at hle ⊢
        omega

lemma awaitProgress_ne_nil (hempty : chunk ≠ [])
    (h : awaitProgress minRead chunkBudget fuel chunk r = (some out, r')) : out ≠ [] := by
  have happend := congrArg List.length (awaitProgress_append h)
  have hle := @awaitProgress_length_le minRead chunkBudget fuel chunk r
  have hpos := List.length_pos_iff.2 hempty
  rw [h] at hle
  simp only [List.length_append] at happend hle
  exact List.length_pos_iff.1 (by omega)

/-- What is read is a part of the stream, and no less than was asked for. -/
lemma readRounds_append (hfuel : total ≤ buf.length + fuel)
    (h : readRounds minRead total fuel buf r = (some out, r')) :
    buf ++ r.data = out ++ r'.data ∧ total ≤ out.length := by
  induction fuel generalizing buf r with
  | zero =>
    cases h
    exact ⟨rfl, hfuel⟩
  | succ fuel ih =>
    rcases hread : r.read (min 65536 (total - buf.length)) with ⟨chunk, r₁⟩
    rw [readRounds_succ hread] at h
    split_ifs at h with hdone hempty
    · cases h
      exact ⟨rfl, hdone⟩
    · cases h
    · rcases hawait : awaitProgress minRead (min 65536 (total - buf.length)) minRead chunk r₁ with ⟨got, r₂⟩
      rw [hawait] at h
      cases got with
      | none => cases h
      | some got =>
        have happend := awaitProgress_append hawait
        have hpos := List.length_pos_iff.2 (awaitProgress_ne_nil hempty hawait)
        obtain ⟨hbuf, hout⟩ := ih (by rw [List.length_append]; omega) h
        refine ⟨?_, hout⟩
        rw [← hbuf, List.append_assoc, ← happend, read_append hread]

/-- Without a read beyond the payload exactly the payload is read. -/
lemma readRounds_within (hfuel : missing ≤ fuel) (hmissing : buf.length + missing = total)
    (hlen : r.data.length = missing + behind)
    (h : payloadReads minRead behind fuel missing r.cuts = some cuts') :
    readRounds minRead total fuel buf r =
      (some (buf ++ r.data.take missing), ⟨r.data.drop missing, cuts'⟩) := by
  induction fuel generalizing buf missing r with
  | zero =>
    obtain rfl : missing = 0 := by omega
    cases h
    simp [readRounds]
  | succ fuel ih =>
    have hbudget : total - buf.length = missing := by omega
    rcases hread : r.read (min 65536 missing) with ⟨chunk, r₁⟩
    have happend := read_append hread
    have hlengths := read_lengths hread
    have hnil := read_eq_nil hread
    rw [payloadReads_succ hread hlen] at h
    rw [← hbudget] at hread
    rw [readRounds_succ hread, hbudget]
    by_cases hzero : missing = 0
    · rw [if_pos hzero] at h
      cases h
      rw [if_pos (by omega), hzero]
      simp
    · have hempty : chunk ≠ [] := by
        intro hempty
        have := hnil (by omega) hempty
        omega
      have hsize := read_length hread
      rw [if_neg hzero] at h
      rw [if_neg (by omega), if_neg hempty]
      cases htopped : toppedUp minRead (min 65536 missing) behind minRead chunk.length
          (missing - chunk.length) r₁.cuts with
      | none =>
        rw [htopped] at h
        cases h
      | some p =>
        obtain ⟨missing', cuts⟩ := p
        rw [htopped] at h
        obtain ⟨got, hawait, hgot⟩ := awaitProgress_within (by omega) (by omega) htopped
        have hpos := List.length_pos_iff.2 hempty
        have hrest := @ih missing' (buf ++ (chunk ++ r₁.data.take got)) ⟨r₁.data.drop got, cuts⟩
          (by omega) (by simp only [List.length_append, List.length_take]; omega)
          (by simp only [List.length_drop]; omega) h
        have hsum : missing = chunk.length + (got + missing') := by omega
        rw [hawait]
        simp only
        rw [hrest, happend, hsum, List.take_length_add_append, List.drop_length_add_append,
          List.take_add, List.drop_drop]
        simp only [List.append_assoc]

/-- With a read beyond the payload nothing is read, or a part of what follows is lost. -/
lemma readRounds_beyond (hmissing : buf.length + missing = total)
    (hlen : r.data.length = missing + behind)
    (h : payloadReads minRead behind fuel missing r.cuts = none)
    (hout : readRounds minRead total fuel buf r = (some out, r')) : r'.data.length < behind := by
  induction fuel generalizing buf missing r with
  | zero => cases h
  | succ fuel ih =>
    have hbudget : total - buf.length = missing := by omega
    rcases hread : r.read (min 65536 missing) with ⟨chunk, r₁⟩
    have hlengths := read_lengths hread
    have hsize := read_length hread
    rw [payloadReads_succ hread hlen] at h
    rw [← hbudget] at hread
    rw [readRounds_succ hread, hbudget] at hout
    split_ifs at h hout with hzero hdone hempty
    · omega
    · cases hout
    · cases htopped : toppedUp minRead (min 65536 missing) behind minRead chunk.length
          (missing - chunk.length) r₁.cuts with
      | none =>
        rcases hawait : awaitProgress minRead (min 65536 missing) minRead chunk r₁ with ⟨_ | got, r₂⟩
        · rw [hawait] at hout
          cases hout
        · have hlt := awaitProgress_beyond (by omega) htopped hawait
          have hle := @readRounds_length_le minRead total fuel (buf ++ got) r₂
          rw [hawait] at hout
          simp only at hout
          rw [hout] at hle
          simp only at hle
          omega
      | some p =>
        obtain ⟨missing', cuts⟩ := p
        obtain ⟨got, hawait, hgot⟩ := awaitProgress_within (by omega) (by omega) htopped
        rw [htopped] at h
        rw [hawait] at hout
        exact ih (by simp only [List.length_append, List.length_take]; omega)
          (by simp only [List.length_drop]; omega) h hout

end reads
section loop
variable {H : Hashlib} {settings : PeerSettings} {fuel : ℕ} {data : Bytes} {command : Text}
  {payload : Bytes} {sent : List (Text × Bytes)} {cuts : ℕ → ℕ}

lemma decode_length {network : Network} {consumed : ℕ}
    (h : MessageCodec.decode H network data = .ok (command, payload, consumed)) :
    24 + payload.length ≤ data.length := by
  rw [MessageCodec.decode, MessageHeader.deserialize] at h
  by_cases hmagic : slice data 0 4 = magicBytes network
  · rw [if_neg (not_not.2 hmagic)] at h
    cases hsize : Serializer.unpackFrom 4 data 16 with
    | error e => simp [hsize] at h
    | ok p =>
      obtain ⟨length, offset⟩ := p
      obtain ⟨-, -, hoffset, -⟩ := (Serializer.readsLe_unpackFrom _).ok hsize
      simp only [hsize] at h
      by_cases hfits : data.length < offset + 4 + length
      · simp [hfits] at h
      · rw [if_neg hfits] at h
        split_ifs at h with hsum
        · simp only [MessageHeader.new, Except.ok.injEq, Prod.mk.injEq] at h
          have hlength := congrArg List.length h.2.1
          rw [slice_length (not_lt.1 hfits)] at hlength
          omega
  · rw [if_pos hmagic] at h
    cases h

/-- The bytes of a list of messages. -/
def bytesOf (sent : List (Text × Bytes)) : ℕ := streamLength (sent.map fun m => m.2.length)

/-- The loop delivers no more than it has read. -/
lemma handleMessages_bytes (r : ChunkedReader UInt8) :
    bytesOf (handleMessages H settings fuel r).1 ≤ r.data.length := by
  induction fuel generalizing r with
  | zero => exact Nat.zero_le _
  | succ fuel ih =>
    rw [handleMessages]
    cases hheader : r.readExactly 24 with
    | none => exact Nat.zero_le _
    | some p =>
      obtain ⟨header, r₁⟩ := p
      obtain ⟨happend, hlength⟩ := readExactly_append hheader
      have hlen := congrArg List.length happend
      rw [List.length_append] at hlen
      simp only
      split_ifs with hover
      · exact Nat.zero_le _
      · rcases hread : readExactlyWithProgress settings.minReadProgressBytes
          (leNat (slice header 16 4)) r₁ with ⟨_ | got, r₂⟩
        · exact Nat.zero_le _
        · obtain ⟨hgot, -⟩ := readRounds_append (by simp) hread
          have hgotLen := congrArg List.length hgot
          rw [List.length_append, List.length_append, List.length_nil] at hgotLen
          simp only
          cases hdecode : MessageCodec.decode H settings.network (header ++ got) with
          | error e => exact Nat.zero_le _
          | ok m =>
            obtain ⟨command, payload, consumed⟩ := m
            have hpayload := decode_length hdecode
            have hrest := ih r₂
            rw [List.length_append] at hpayload
            simp only
            split_ifs with hvalid
            · simp only [bytesOf, List.map_cons, streamLength] at hrest ⊢
              omega
            · exact Nat.zero_le _

/-- A message that the loop accepts. -/
structure Deliverable (H : Hashlib) (settings : PeerSettings) (m : Text × Bytes) : Prop where
  command : m.1 ∈ VALID_COMMANDS
  fits : m.1.length ≤ 12
  payload : m.2.length ≤ settings.maxPayloadSize
  digest : 4 ≤ (H.hash256 m.2).length

lemma Deliverable.fitsField {m : Text × Bytes} (h : Deliverable H settings m) :
    MessageCodec.FitsField m.1 := by
  have hall : ∀ command ∈ VALID_COMMANDS, command.length ≤ 12 →
      rstripNul (decodeAscii (MessageHeader.commandField command)) = command := by decide
  exact hall m.1 h.command h.fits

/-- What is written for a message and the messages after it. -/
lemma writeMessages_cons {network : Network} {written : Bytes}
    (h : writeMessages H network ((command, payload) :: sent) = .ok written) :
    payload.length < 2 ^ 32 ∧ ∃ rest, writeMessages H network sent = .ok rest ∧
      written = MessageCodec.envelope H network command payload ++ (payload ++ rest) := by
  obtain ⟨encoded, hencoded, h⟩ := except_bind_eq_ok h
  obtain ⟨rest, hrest, h⟩ := except_bind_eq_ok h
  obtain ⟨rfl, hlength⟩ := MessageCodec.encode_ok hencoded
  cases h
  exact ⟨hlength, rest, hrest, List.append_assoc _ _ _⟩

lemma writeMessages_length {written : Bytes} (hsent : ∀ m ∈ sent, Deliverable H settings m)
    (h : writeMessages H settings.network sent = .ok written) : written.length = bytesOf sent := by
  induction sent generalizing written with
  | nil =>
    cases h
    rfl
  | cons m sent ih =>
    obtain ⟨command, payload⟩ := m
    obtain ⟨-, rest, hrest, rfl⟩ := writeMessages_cons h
    have henvelope := MessageCodec.envelope_length settings.network command
      (hsent (command, payload) (by simp)).digest
    have hlen := ih (fun m hm => hsent m (by simp [hm])) hrest
    simp only [List.length_append, henvelope, hlen, bytesOf, List.map_cons, streamLength]
    omega

/-- The loop on a message at the front of the stream. -/
lemma handleMessages_cons {rest : Bytes} (hm : Deliverable H settings (command, payload))
    (hlength : payload.length < 2 ^ 32) :
    handleMessages H settings (fuel + 1)
        ⟨MessageCodec.envelope H settings.network command payload ++ (payload ++ rest), cuts⟩ =
      match readExactlyWithProgress settings.minReadProgressBytes payload.length
          ⟨payload ++ rest, cuts⟩ with
      | (none, _) => ([], .partial_message_timeout)
      | (some got, r) =>
        match MessageCodec.decode H settings.network
            (MessageCodec.envelope H settings.network command payload ++ got) with
        | .error _ => ([], .malformed_message)
        | .ok (command, decoded, _) =>
          if command ∉ VALID_COMMANDS then ([], .invalid_command)
          else
            ((command, decoded) :: (handleMessages H settings fuel r).1,
              (handleMessages H settings fuel r).2) := by
  have hsize : ¬ settings.maxPayloadSize < payload.length := Nat.not_lt.2 hm.payload
  rw [handleMessages, readExactly_front (MessageCodec.envelope_length _ _ hm.digest)]
  rcases hread : readExactlyWithProgress settings.minReadProgressBytes payload.length
    ⟨payload ++ rest, cuts⟩ with ⟨_ | got, r⟩
  · simp only [MessageCodec.envelope_payloadLength hlength, if_neg hsize, hread]
  cases hdecode : MessageCodec.decode H settings.network
      (MessageCodec.envelope H settings.network command payload ++ got) with
  | error e =>
    simp only [MessageCodec.envelope_payloadLength hlength, if_neg hsize, hread, hdecode]
  | ok out =>
    simp only [MessageCodec.envelope_payloadLength hlength, if_neg hsize, hread, hdecode]

lemma handleMessages_eq_iff {written : Bytes} (hsent : ∀ m ∈ sent, Deliverable H settings m)
    (hwritten : writeMessages H settings.network sent = .ok written) (hfuel : written.length ≤ fuel) :
    (handleMessages H settings fuel ⟨written, cuts⟩).1 = sent ↔
      ReadsWithin settings.minReadProgressBytes (sent.map fun m => m.2.length) cuts := by
  induction sent generalizing written fuel cuts with
  | nil =>
    cases hwritten
    cases fuel <;> simp [handleMessages, readExactly, ReadsWithin]
  | cons m sent ih =>
    obtain ⟨command, payload⟩ := m
    have hm := hsent (command, payload) (by simp)
    obtain ⟨hlength, rest, hrest, rfl⟩ := writeMessages_cons hwritten
    have henvelope := MessageCodec.envelope_length settings.network command hm.digest
    have hrestLen := writeMessages_length (fun m hm => hsent m (by simp [hm])) hrest
    rw [List.length_append, henvelope] at hfuel
    obtain ⟨fuel, rfl⟩ : ∃ n, fuel = n + 1 := ⟨fuel - 1, by omega⟩
    rw [handleMessages_cons hm hlength, List.map_cons, ReadsWithin]
    cases hreads : payloadReads settings.minReadProgressBytes
        (streamLength (sent.map fun m => m.2.length)) payload.length payload.length cuts with
    | none =>
      simp only [iff_false]
      intro hdelivered
      rcases hread : readExactlyWithProgress settings.minReadProgressBytes payload.length
        ⟨payload ++ rest, cuts⟩ with ⟨_ | got, r'⟩
      · rw [hread] at hdelivered
        cases hdelivered
      · have hlost := readRounds_beyond (Nat.zero_add _)
          (by rw [List.length_append, hrestLen]; rfl) hreads hread
        have hbytes := @handleMessages_bytes H settings fuel r'
        rw [hread] at hdelivered
        simp only at hdelivered
        cases hdecode : MessageCodec.decode H settings.network
            (MessageCodec.envelope H settings.network command payload ++ got) with
        | error e =>
          rw [hdecode] at hdelivered
          cases hdelivered
        | ok decoded =>
          obtain ⟨command', payload', consumed⟩ := decoded
          rw [hdecode] at hdelivered
          simp only at hdelivered
          split_ifs at hdelivered with hvalid
          have htail := (List.cons.inj hdelivered).2
          rw [htail] at hbytes
          exact absurd hlost (Nat.not_lt.2 hbytes)
    | some cuts' =>
      have hread := @readRounds_within settings.minReadProgressBytes _ _ payload.length payload.length
        [] ⟨payload ++ rest, cuts⟩ cuts' (Nat.le_refl _) (Nat.zero_add _)
        (by rw [List.length_append, hrestLen]; rfl) hreads
      have hdecode := MessageCodec.decode_encode settings.network hm.digest hlength hm.fitsField []
      rw [List.take_left, List.drop_left, List.nil_append] at hread
      rw [List.append_nil] at hdecode
      rw [readExactlyWithProgress, hread]
      simp only [hdecode, hm.command, not_true_eq_false, if_false, List.cons.injEq, true_and]
      exact ih (fun m hm => hsent m (by simp [hm])) hrest (by rw [List.length_append] at hfuel; omega)

lemma toppedUp_of_one {minRead chunkBudget behind size missing : ℕ} (h : minRead ≤ 1)
    (hsize : 0 < size) (cuts : ℕ → ℕ) :
    toppedUp minRead chunkBudget behind minRead size missing cuts = some (missing, cuts) := by
  cases minRead with
  | zero => rfl
  | succ n => rw [toppedUp, if_pos (by omega)]

lemma payloadReads_of_one {minRead behind missing : ℕ} (h : minRead ≤ 1) (cuts : ℕ → ℕ) :
    (payloadReads minRead behind fuel missing cuts).isSome := by
  induction fuel generalizing missing cuts with
  | zero => rfl
  | succ fuel ih =>
    rw [payloadReads]
    split_ifs with hzero
    · rfl
    · simp only [toppedUp_of_one h (show 0 < min (min 65536 missing) (cuts 0 + 1) by omega)]
      exact ih _

/-- Where no more progress is asked for than a byte, every read stays within its payload. -/
theorem readsWithin_of_one {minRead : ℕ} (h : minRead ≤ 1) (sizes : List ℕ) (cuts : ℕ → ℕ) :
    ReadsWithin minRead sizes cuts := by
  induction sizes generalizing cuts with
  | nil => trivial
  | cons size sizes ih =>
    obtain ⟨cuts', hreads⟩ := Option.isSome_iff_exists.1
      (@payloadReads_of_one size minRead (streamLength sizes) size h cuts)
    rw [ReadsWithin, hreads]
    exact ih cuts'

/-- The read loop delivers what was sent, exactly where its reads stay within the payloads. -/
theorem messages_eq_iff {written : Bytes} (hsent : ∀ m ∈ sent, Deliverable H settings m)
    (hwritten : writeMessages H settings.network sent = .ok written) :
    messages H settings ⟨written, cuts⟩ = sent ↔
      ReadsWithin settings.minReadProgressBytes (sent.map fun m => m.2.length) cuts :=
  handleMessages_eq_iff hsent hwritten (Nat.le_refl _)

end loop

/-! Two pings. The last byte of the first payload comes alone, and a read that waits for a second
byte takes it from the second message. -/
namespace FramingExample

def crypto : Hashlib := Hashlib.ofDigests
  [(leBytes 8 7, beBytes 32 0xaae89fc0f03e2959ae4d701a80cc3915918c950b159f6abb6c92c1433b1a8534),
    (beBytes 32 0xaae89fc0f03e2959ae4d701a80cc3915918c950b159f6abb6c92c1433b1a8534, beBytes 32 0x8c820c8023762cf816908cd66961650318c926874a976443c8e99c58d3de1f07),
    (leBytes 8 9, beBytes 32 0xcbbd5f990c53684d7ae650b40fcb5656e02261b53da5f6a7d8c819c92f2828f8),
    (beBytes 32 0xcbbd5f990c53684d7ae650b40fcb5656e02261b53da5f6a7d8c819c92f2828f8, beBytes 32 0x05b43ca41a1528da24ad7fcf14be9835ac6532734ea574eabcc9e3316f3d89e1)]

def pings : List (Text × Bytes) := [("ping".toList, leBytes 8 7), ("ping".toList, leBytes 8 9)]

def settings : PeerSettings := { network := .regtest, minReadProgressBytes := 2 }

def stream : Bytes :=
  (pings.map fun m => MessageCodec.envelope crypto .regtest m.1 m.2 ++ m.2).flatten

/-- Seven bytes, and then one at a time. -/
def cuts (i : ℕ) : ℕ := if i = 0 then 6 else 0

lemma deliverable : ∀ m ∈ pings, Deliverable crypto settings m := by
  intro m hm
  have hchecks : ∀ m ∈ pings, m.1 ∈ VALID_COMMANDS ∧ m.1.length ≤ 12 ∧ m.2.length ≤ 2000000 ∧
      4 ≤ (crypto.hash256 m.2).length := by decide +kernel
  obtain ⟨hcommand, hfits, hpayload, hdigest⟩ := hchecks m hm
  exact ⟨hcommand, hfits, hpayload, hdigest⟩

end FramingExample

theorem messages_eq_pings_iff :
    messages FramingExample.crypto FramingExample.settings ⟨FramingExample.stream, FramingExample.cuts⟩ =
        FramingExample.pings ↔
      ReadsWithin 2 [8, 8] FramingExample.cuts :=
  messages_eq_iff FramingExample.deliverable (by decide +kernel)

/-- The second ping is lost. -/
theorem second_ping_lost :
    (∀ m ∈ FramingExample.pings, Deliverable FramingExample.crypto FramingExample.settings m) ∧
      writeMessages FramingExample.crypto .regtest FramingExample.pings = .ok FramingExample.stream ∧
      messages FramingExample.crypto FramingExample.settings
          ⟨FramingExample.stream, FramingExample.cuts⟩ = [("ping".toList, leBytes 8 7)] ∧
      messages FramingExample.crypto FramingExample.settings
          ⟨FramingExample.stream, FramingExample.cuts⟩ ≠ FramingExample.pings :=
  ⟨FramingExample.deliverable, by decide +kernel, by decide +kernel, by decide +kernel⟩

end Peer
end BerzCoin
