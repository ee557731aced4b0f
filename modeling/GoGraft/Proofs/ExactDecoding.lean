import GoGraft.Proofs.Results
import GoGraft.Proofs.Utf8Decoding
import GoGraft.Store.Access

/-!
# Which content is a text

Well-formed bytes are said here without the decoder, as sequences of one to four bytes in the ranges that leave out overlong
forms, surrogates and codes beyond the last one. They are exactly the encodings of texts. A decoder that stops reports where
its last complete character ended: the bytes before are an encoding, and every other encoding at the front of the content
was passed before it stopped.
-/

namespace GoGraft

namespace Utf8

/-- A byte that continues a character. -/
def IsTail (b : UInt8) : Prop :=
  0x80 ≤ b.toNat ∧ b.toNat ≤ 0xBF

/-- The bytes of one character. -/
inductive IsSequence : Bytes → Prop where
  | one {a : UInt8} (ha : a.toNat ≤ 0x7F) : IsSequence [a]
  | two {a b : UInt8} (hlow : 0xC2 ≤ a.toNat) (hhigh : a.toNat ≤ 0xDF) (hb : IsTail b) : IsSequence [a, b]
  | three {a b c : UInt8} (hlow : 0xE0 ≤ a.toNat) (hhigh : a.toNat ≤ 0xEF) (hb : IsTail b) (hc : IsTail c)
      (hoverlong : a.toNat = 0xE0 → 0xA0 ≤ b.toNat) (hsurrogate : a.toNat = 0xED → b.toNat ≤ 0x9F) :
      IsSequence [a, b, c]
  | four {a b c d : UInt8} (hlow : 0xF0 ≤ a.toNat) (hhigh : a.toNat ≤ 0xF4) (hb : IsTail b) (hc : IsTail c)
      (hd : IsTail d) (hoverlong : a.toNat = 0xF0 → 0x90 ≤ b.toNat) (hbeyond : a.toNat = 0xF4 → b.toNat ≤ 0x8F) :
      IsSequence [a, b, c, d]

/-- The bytes of some characters, one after the other. -/
inductive IsWellFormed : Bytes → Prop where
  | nil : IsWellFormed []
  | cons {sequence rest : Bytes} (hsequence : IsSequence sequence) (hrest : IsWellFormed rest) :
      IsWellFormed (sequence ++ rest)

theorem isTail_ofNat {n : Nat} (hlt : n < 0x40) : IsTail (UInt8.ofNat (n + 0x80)) := by
  rw [IsTail, toNat_ofNat_of_lt (by omega)]
  omega

theorem isSequence_encodeChar (c : Char) : IsSequence (String.utf8EncodeChar c) := by
  have hvalid : c.toNat.isValidChar := c.valid
  rw [← Char.ofNat_toNat c]
  generalize c.toNat = n at hvalid
  have hbound : n < 0x110000 := by obtain hlow | ⟨-, hhigh⟩ := hvalid <;> omega
  have htail (m : Nat) : IsTail (UInt8.ofNat (m % 0x40 + 0x80)) := isTail_ofNat (by omega)
  rw [encodeChar_ofNat hvalid]
  split
  · exact .one (by rw [toNat_ofNat_of_lt] <;> omega)
  split
  · have hlead := toNat_ofNat_of_lt (show n / 64 % 0x20 + 0xC0 < 256 by omega)
    exact .two (by omega) (by omega) (htail n)
  split
  · have hlead := toNat_ofNat_of_lt (show n / 4096 % 0x10 + 0xE0 < 256 by omega)
    have hsecond := toNat_ofNat_of_lt (show n / 64 % 0x40 + 0x80 < 256 by omega)
    exact .three (by omega) (by omega) (htail (n / 64)) (htail n) (by omega)
      (by obtain hvalid | hvalid := hvalid <;> omega)
  · have hlead := toNat_ofNat_of_lt (show n / 262144 % 0x08 + 0xF0 < 256 by omega)
    have hsecond := toNat_ofNat_of_lt (show n / 4096 % 0x40 + 0x80 < 256 by omega)
    exact .four (by omega) (by omega) (htail (n / 4096)) (htail (n / 64)) (htail n) (by omega) (by omega)

theorem exists_encodeChar {sequence : Bytes} (hsequence : IsSequence sequence) :
    ∃ c, String.utf8EncodeChar c = sequence := by
  cases hsequence with
  | @one a ha =>
      refine ⟨Char.ofNat a.toNat, ?_⟩
      rw [encodeChar_ofNat (Or.inl (by omega)), if_pos ha, UInt8.ofNat_toNat]
  | two hlow hhigh hb => exact ⟨_, encodeChar_two hlow (by omega) hb.1 hb.2⟩
  | three hlow hhigh hb hc hoverlong hsurrogate =>
      obtain ⟨hb, hb'⟩ := hb
      exact ⟨_, encodeChar_three hlow (by omega) (by split <;> omega) (by split <;> omega) hc.1 hc.2⟩
  | four hlow hhigh hb hc hd hoverlong hbeyond =>
      obtain ⟨hb, hb'⟩ := hb
      exact ⟨_, encodeChar_four hlow (by omega) (by split <;> omega) (by split <;> omega) hc.1 hc.2 hd.1 hd.2⟩

theorem isWellFormed_iff {bytes : Bytes} : IsWellFormed bytes ↔ ∃ text, encode text = bytes := by
  constructor
  · intro hbytes
    induction hbytes with
    | nil => exact ⟨[], rfl⟩
    | cons hsequence _ ih =>
        obtain ⟨c, rfl⟩ := exists_encodeChar hsequence
        obtain ⟨text, rfl⟩ := ih
        exact ⟨c :: text, rfl⟩
  · rintro ⟨text, rfl⟩
    induction text with
    | nil => exact .nil
    | cons c text ih => exact .cons (isSequence_encodeChar c) ih

theorem decode_eq_ok {bytes : Bytes} {text : Text} : decode bytes = .ok text ↔ encode text = bytes := by
  constructor
  · exact encode_of_decode
  · rintro rfl
    exact decode_encode text

namespace Decoder

variable {decoder next : Decoder} {byte : UInt8} {offset : Nat}

/-- The offset counts the bytes of the characters that are complete. -/
def IsCounted (decoder : Decoder) : Prop :=
  decoder.offset = (encode decoder.chars.reverse).length

theorem isCounted_push (hcounted : decoder.IsCounted) (c : Char) : (decoder.push c).IsCounted := by
  rw [IsCounted] at hcounted
  simp only [IsCounted, push, List.reverse_cons, encode_append, encode_singleton, List.length_append,
    String.length_utf8EncodeChar, hcounted]

/-- What a step can do: it refuses the byte, completes a character, or waits for more of it. -/
theorem step_cases (decoder : Decoder) (byte : UInt8) :
    decoder.step byte = .error decoder.offset ∨ (∃ c, decoder.step byte = .ok (decoder.push c)) ∨
      ∃ part, decoder.step byte = .ok { decoder with part := some part } := by
  unfold step
  cases decoder.part with
  | none =>
      cases lead? byte with
      | none => exact .inl rfl
      | some lead =>
          cases lead with
          | char c => exact .inr (.inl ⟨c, rfl⟩)
          | first part => exact .inr (.inr ⟨part, rfl⟩)
  | some part =>
      dsimp only
      split
      · split
        · exact .inr (.inl ⟨_, rfl⟩)
        · exact .inr (.inr ⟨_, rfl⟩)
      · exact .inl rfl

theorem isCounted_step (hcounted : decoder.IsCounted) (hstep : decoder.step byte = .ok next) :
    next.IsCounted ∧ decoder.offset ≤ next.offset := by
  obtain hrefused | ⟨c, hpushed⟩ | ⟨part, hwaits⟩ := step_cases decoder byte
  · cases hrefused.symm.trans hstep
  · obtain rfl := Except.ok.inj (hpushed.symm.trans hstep)
    exact ⟨isCounted_push hcounted c, Nat.le_add_right _ _⟩
  · obtain rfl := Except.ok.inj (hwaits.symm.trans hstep)
    exact ⟨hcounted, Nat.le_refl _⟩

theorem eq_offset_of_step (hstep : decoder.step byte = .error offset) : decoder.offset = offset := by
  obtain hrefused | ⟨c, hpushed⟩ | ⟨part, hwaits⟩ := step_cases decoder byte
  · exact Except.error.inj (hrefused.symm.trans hstep)
  · cases hpushed.symm.trans hstep
  · cases hwaits.symm.trans hstep

theorem exists_encode_of_holds {seen : Bytes} (hcounted : decoder.IsCounted) (hholds : decoder.Holds seen) (rest : Bytes) :
    ∃ text, encode text <+: seen ++ rest ∧ (encode text).length = decoder.offset := by
  obtain ⟨pending, rfl, -⟩ := hholds
  refine ⟨decoder.chars.reverse, ?_, hcounted.symm⟩
  rw [List.append_assoc]
  exact List.prefix_append _ _

theorem stops_of_run {before bytes : Bytes} (hcounted : decoder.IsCounted) (hholds : decoder.Holds before)
    (hrun : (bytes.foldlM step decoder >>= finish) = .error offset) :
    decoder.offset ≤ offset ∧ ∃ text, encode text <+: before ++ bytes ∧ (encode text).length = offset := by
  induction bytes generalizing decoder before with
  | nil =>
      change decoder.finish = .error offset at hrun
      have hoffset : decoder.offset = offset := by
        unfold finish at hrun
        split at hrun
        · cases hrun
        · exact Except.error.inj hrun
      subst hoffset
      exact ⟨Nat.le_refl _, exists_encode_of_holds hcounted hholds []⟩
  | cons byte bytes ih =>
      rw [List.foldlM_cons] at hrun
      cases hstep : decoder.step byte with
      | error reported =>
          rw [hstep] at hrun
          obtain rfl := Except.error.inj hrun
          obtain rfl := eq_offset_of_step hstep
          exact ⟨Nat.le_refl _, exists_encode_of_holds hcounted hholds _⟩
      | ok next =>
          rw [hstep] at hrun
          obtain ⟨hnext, hle⟩ := isCounted_step hcounted hstep
          obtain ⟨hbehind, text, hbegins, hlength⟩ := ih hnext (holds_step hholds hstep) hrun
          rw [List.append_assoc] at hbegins
          exact ⟨Nat.le_trans hle hbehind, text, hbegins, hlength⟩

theorem isCounted_start : start.IsCounted :=
  rfl

theorem isCounted_run {final : Decoder} {bytes : Bytes} (hcounted : decoder.IsCounted)
    (hrun : bytes.foldlM step decoder = .ok final) : final.IsCounted := by
  induction bytes generalizing decoder with
  | nil =>
      obtain rfl := Except.ok.inj hrun
      exact hcounted
  | cons byte bytes ih =>
      rw [List.foldlM_cons] at hrun
      obtain ⟨next, hstep, hrun⟩ := bind_eq_ok.mp hrun
      exact ih (isCounted_step hcounted hstep).1 hrun

end Decoder

theorem exists_encode_of_decode {bytes : Bytes} {offset : Nat} (hdecode : decode bytes = .error offset) :
    ∃ text, encode text <+: bytes ∧ (encode text).length = offset :=
  (Decoder.stops_of_run Decoder.isCounted_start Decoder.holds_start hdecode).2

theorem length_le_of_decode {bytes : Bytes} {offset : Nat} {text : Text} (hdecode : decode bytes = .error offset)
    (hbegins : encode text <+: bytes) : (encode text).length ≤ offset := by
  obtain ⟨rest, rfl⟩ := hbegins
  obtain ⟨final, hrun, -, hchars⟩ := Decoder.run_encode text .start rfl
  have hcounted := Decoder.isCounted_run Decoder.isCounted_start hrun
  have hholds := Decoder.holds_run Decoder.holds_start hrun
  unfold decode at hdecode
  rw [List.foldlM_append, hrun] at hdecode
  have hbehind := (Decoder.stops_of_run hcounted hholds hdecode).1
  rw [hcounted, hchars] at hbehind
  simpa [Decoder.start] using hbehind

/-- The length of the longest part in front that is well-formed. -/
structure IsLongest (bytes : Bytes) (length : Nat) : Prop where
  le : length ≤ bytes.length
  isWellFormed : IsWellFormed (bytes.take length)
  longest : ∀ other ≤ bytes.length, IsWellFormed (bytes.take other) → other ≤ length

theorem isLongest_of_decode {bytes : Bytes} {offset : Nat} (hdecode : decode bytes = .error offset) :
    IsLongest bytes offset := by
  obtain ⟨text, hbegins, rfl⟩ := exists_encode_of_decode hdecode
  refine ⟨hbegins.length_le, ?_, ?_⟩
  · rw [← List.prefix_iff_eq_take.mp hbegins]
    exact isWellFormed_iff.mpr ⟨text, rfl⟩
  · intro other hother hwell
    obtain ⟨front, hfront⟩ := isWellFormed_iff.mp hwell
    have hle := length_le_of_decode hdecode (hfront ▸ List.take_prefix other bytes)
    rwa [hfront, List.length_take_of_le hother] at hle

theorem IsLongest.unique {bytes : Bytes} {length other : Nat} (hlongest : IsLongest bytes length)
    (hother : IsLongest bytes other) : length = other :=
  Nat.le_antisymm (hother.longest length hlongest.le hlongest.isWellFormed)
    (hlongest.longest other hother.le hother.isWellFormed)

/-- Decoding fails on bytes that are not well-formed, at the end of their longest part that is. -/
theorem decode_eq_error {bytes : Bytes} {offset : Nat} :
    decode bytes = .error offset ↔ ¬ IsWellFormed bytes ∧ IsLongest bytes offset := by
  constructor
  · intro hdecode
    refine ⟨?_, isLongest_of_decode hdecode⟩
    intro hwell
    obtain ⟨text, rfl⟩ := isWellFormed_iff.mp hwell
    rw [decode_encode] at hdecode
    cases hdecode
  · rintro ⟨hill, hlongest⟩
    cases hdecode : decode bytes with
    | ok text => exact absurd (isWellFormed_iff.mpr ⟨text, decode_eq_ok.mp hdecode⟩) hill
    | error reported => rw [(isLongest_of_decode hdecode).unique hlongest]

end Utf8

theorem isBinary_iff {content : Bytes} : isBinary content ↔ ∃ i < min content.length 8192, content[i]? = some 0 := by
  rw [isBinary, List.contains_iff_mem, List.mem_iff_getElem?]
  constructor
  · rintro ⟨i, hi⟩
    obtain ⟨hlt, -⟩ := List.getElem?_eq_some_iff.mp hi
    rw [List.length_take, binaryWindow] at hlt
    refine ⟨i, by omega, ?_⟩
    rwa [List.getElem?_take_of_lt (by rw [binaryWindow]; omega)] at hi
  · rintro ⟨i, hlt, hi⟩
    refine ⟨i, ?_⟩
    rwa [List.getElem?_take_of_lt (by rw [binaryWindow]; omega)]

/-- Content is refused as binary when one of its first 8192 bytes is zero. Other content is a text when it is well-formed,
and the text encodes to it again; else the length of the longest part in front that is well-formed is reported. -/
theorem decodeContent_exact (content : Bytes) :
    (decodeContent content = .error .binary ↔ ∃ i < min content.length 8192, content[i]? = some 0) ∧
      (∀ text, decodeContent content = .ok text ↔
        (¬ ∃ i < min content.length 8192, content[i]? = some 0) ∧ Utf8.IsWellFormed content ∧
          Utf8.encode text = content) ∧
      ((∃ text, Utf8.encode text = content) ↔ Utf8.IsWellFormed content) ∧
      ∀ offset, decodeContent content = .error (.notUtf8 offset) ↔
        (¬ ∃ i < min content.length 8192, content[i]? = some 0) ∧ ¬ Utf8.IsWellFormed content ∧
          Utf8.IsLongest content offset := by
  rw [← isBinary_iff]
  unfold decodeContent
  cases hbinary : isBinary content with
  | true => simp [Utf8.isWellFormed_iff]
  | false =>
      simp only [Bool.false_eq_true, if_false, mapError_eq_ok, mapError_eq_error, Utf8.decode_eq_ok,
        Utf8.decode_eq_error, not_false_eq_true, true_and]
      refine ⟨by simp, ?_, Utf8.isWellFormed_iff.symm, ?_⟩
      · intro text
        exact ⟨fun htext => ⟨Utf8.isWellFormed_iff.mpr ⟨text, htext⟩, htext⟩, And.right⟩
      · intro offset
        constructor
        · rintro ⟨reported, hreported, heq⟩
          obtain rfl := StoreError.notUtf8.inj heq
          exact hreported
        · intro hreported
          exact ⟨offset, hreported, rfl⟩

-- A surrogate, after a character of three bytes: the offset is where the sequence of the surrogate begins.
example : decodeContent [0xE2, 0x82, 0xAC, 0xED, 0xA0, 0x80] = .error (.notUtf8 3) := by rfl

end GoGraft
