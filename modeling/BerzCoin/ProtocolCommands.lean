import BerzCoin.P2pFraming

/-! The command of a message on the wire. A message is read under the name that its command field
holds, and the field has room for twelve characters. -/
namespace BerzCoin
open Serializer

namespace MessageHeader

/-- What is left of a command in its field. -/
def fieldName (command : Text) : Text := rstripNul (decodeAscii (commandField command))

lemma encodeAscii_decodeAscii {data : Bytes} (h : ∀ b ∈ data, b < 128) :
    encodeAscii (decodeAscii data) = data := by
  induction data with
  | nil => rfl
  | cons b data ih =>
    have hbyte : ∀ b : UInt8, b < 128 → encodeAscii (decodeAscii [b]) = [b] := by decide +kernel
    have hhead := hbyte b (h b List.mem_cons_self)
    have htail := ih fun b' hb' => h b' (List.mem_cons_of_mem b hb')
    change encodeAscii (decodeAscii [b]) ++ encodeAscii (decodeAscii data) = [b] ++ data
    rw [hhead, htail]

lemma encodeAscii_lt (command : Text) : ∀ b ∈ encodeAscii command, b < 128 := by
  intro b hb
  obtain ⟨c, -, rfl⟩ := List.mem_map.1 hb
  split_ifs with hc
  · rw [UInt8.lt_iff_toNat_lt, UInt8.toNat_ofNat']
    change c.toNat % 256 < 128
    omega
  · decide

lemma commandField_lt (command : Text) : ∀ b ∈ commandField command, b < 128 := by
  intro b hb
  rw [commandField, List.mem_append] at hb
  cases hb with
  | inl hfield => exact encodeAscii_lt command b (List.mem_of_mem_take hfield)
  | inr hpad =>
    rw [List.eq_of_mem_replicate hpad]
    decide

lemma rstripNul_append (text : Text) : ∃ n, rstripNul text ++ List.replicate n (Char.ofNat 0) = text := by
  have hnuls : text.rtakeWhile (· = Char.ofNat 0) =
      List.replicate (text.rtakeWhile (· = Char.ofNat 0)).length (Char.ofNat 0) := by
    apply List.eq_replicate_of_mem
    intro c hc
    simpa using List.mem_rtakeWhile_imp hc
  refine ⟨(text.rtakeWhile (· = Char.ofNat 0)).length, ?_⟩
  rw [← hnuls]
  exact List.rdropWhile_append_rtakeWhile

/-- The name has the field of the command. -/
lemma commandField_fieldName (command : Text) : commandField (fieldName command) = commandField command := by
  obtain ⟨field, hfield⟩ : ∃ field, commandField command = field := ⟨_, rfl⟩
  have hlength : field.length = 12 := hfield ▸ MessageCodec.commandField_length command
  have hlt : ∀ b ∈ field, b < 128 := hfield ▸ commandField_lt command
  obtain ⟨n, hname⟩ := rstripNul_append (decodeAscii field)
  obtain ⟨name, hnameEq⟩ : ∃ name, rstripNul (decodeAscii field) = name := ⟨_, rfl⟩
  have hencoded : encodeAscii name ++ List.replicate n 0 = field := by
    have hnul : encodeAscii (List.replicate n (Char.ofNat 0)) = List.replicate n 0 := by
      rw [encodeAscii, List.map_replicate]
      rfl
    rw [hnameEq] at hname
    rw [← encodeAscii_decodeAscii hlt, ← hname, ← hnul, encodeAscii, encodeAscii, encodeAscii, List.map_append]
  have hcount := congrArg List.length hencoded
  rw [List.length_append, List.length_replicate, hlength] at hcount
  rw [fieldName, hfield, hnameEq, commandField, List.take_of_length_le (by omega)]
  rw [show 12 - (encodeAscii name).length = n by omega]
  exact hencoded

lemma fieldName_fieldName (command : Text) : fieldName (fieldName command) = fieldName command := by
  rw [fieldName, commandField_fieldName]
  rfl

end MessageHeader

namespace MessageCodec
open MessageHeader
variable {H : Hashlib} {network : Network} {command : Text} {payload : Bytes}

/-- A message is read under the name in its field, whatever its command is. -/
lemma decode_fieldName (network : Network) (command : Text) (hdigest : 4 ≤ (H.hash256 payload).length)
    (hlength : payload.length < 2 ^ 32) (rest : Bytes) :
    ∃ encoded, encode H network command payload = .ok encoded ∧
      decode H network (encoded ++ rest) = .ok (fieldName command, payload, 24 + payload.length) := by
  refine ⟨envelope H network command payload ++ payload, ?_, ?_⟩
  · have hfits : (MessageHeader.new H network command payload).length < 2 ^ 32 := hlength
    rw [encode, MessageHeader.serialize, if_pos hfits, Except.ok.injEq]
    simp only [MessageHeader.new, envelope, List.append_assoc]
  · have hdecode := decode_encode network hdigest hlength (fieldName_fieldName command) rest
    rw [envelope, commandField_fieldName] at hdecode
    rw [List.append_assoc]
    exact hdecode

/-- The commands of the peers fill their field, but for one. -/
lemma fieldName_eq_iff (hcommand : command ∈ VALID_COMMANDS) : fieldName command = command ↔ command.length ≤ 12 := by
  have hall : ∀ command ∈ VALID_COMMANDS, fieldName command = command ↔ command.length ≤ 12 := by decide
  exact hall command hcommand

/-- A command of the peers comes back exactly where its field holds all of it. -/
theorem decode_command_iff (network : Network) (hcommand : command ∈ VALID_COMMANDS)
    (hdigest : 4 ≤ (H.hash256 payload).length) (hlength : payload.length < 2 ^ 32) (rest : Bytes) :
    (∃ encoded, encode H network command payload = .ok encoded ∧
        decode H network (encoded ++ rest) = .ok (command, payload, 24 + payload.length)) ↔
      command.length ≤ 12 := by
  obtain ⟨encoded, hencoded, hdecoded⟩ := decode_fieldName network command hdigest hlength rest
  rw [← fieldName_eq_iff hcommand]
  constructor
  · rintro ⟨encoded', hencoded', hdecoded'⟩
    rw [hencoded, Except.ok.injEq] at hencoded'
    rw [← hencoded', hdecoded] at hdecoded'
    exact (Prod.mk.inj (Except.ok.inj hdecoded')).1
  · intro hname
    rw [hname] at hdecoded
    exact ⟨encoded, hencoded, hdecoded⟩

open Peer in
/-- A ping comes back. -/
theorem decode_ping_iff :
    (∃ encoded, encode FramingExample.crypto .regtest "ping".toList (leBytes 8 7) = .ok encoded ∧
        decode FramingExample.crypto .regtest (encoded ++ [0xfa]) =
          .ok ("ping".toList, leBytes 8 7, 24 + (leBytes 8 7).length)) ↔
      "ping".toList.length ≤ 12 :=
  decode_command_iff .regtest (by decide) (by decide +kernel) (by decide) [0xfa]

open Peer in
/-- The challenge of a join is read under a name that no peer takes. -/
theorem challenge_cut_off :
    "join_challenge".toList ∈ VALID_COMMANDS ∧ "join_challen".toList ∉ VALID_COMMANDS ∧
      ∃ encoded, encode FramingExample.crypto .regtest "join_challenge".toList (leBytes 8 7) = .ok encoded ∧
        decode FramingExample.crypto .regtest encoded = .ok ("join_challen".toList, leBytes 8 7, 32) ∧
        decode FramingExample.crypto .regtest encoded ≠
          .ok ("join_challenge".toList, leBytes 8 7, 24 + (leBytes 8 7).length) := by
  obtain ⟨encoded, hencoded⟩ : ∃ encoded,
      encode FramingExample.crypto .regtest "join_challenge".toList (leBytes 8 7) = .ok encoded := ⟨_, rfl⟩
  have hdecoded : decode FramingExample.crypto .regtest encoded =
      .ok ("join_challen".toList, leBytes 8 7, 32) := by
    rw [← Except.ok.inj hencoded]
    decide +kernel
  refine ⟨by decide, by decide, encoded, hencoded, hdecoded, ?_⟩
  rw [hdecoded]
  decide

end MessageCodec
end BerzCoin
