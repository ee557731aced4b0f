import GoGraft.Text.Utf8

/-!
# Decoding loses nothing

A text that was decoded from some bytes encodes to these bytes again. The decoder keeps only the code of a
character whose bytes have begun to arrive, not the bytes; `Begun` recovers them, and the invariant of a
run is that the characters so far and the bytes of the one that has begun make up what was read. The other
way round, the bytes of a character take a decoder from one character to the next.
-/

namespace GoGraft.Utf8

theorem encode_append (left right : Text) : encode (left ++ right) = encode left ++ encode right := by
  simp [encode]

theorem encode_singleton (c : Char) : encode [c] = String.utf8EncodeChar c := by
  simp [encode]

theorem encodeChar_ofNat {n : Nat} (hvalid : n.isValidChar) :
    String.utf8EncodeChar (Char.ofNat n) =
      if n ≤ 0x7F then [UInt8.ofNat n]
      else if n ≤ 0x7FF then [UInt8.ofNat (n / 64 % 0x20 + 0xC0), UInt8.ofNat (n % 0x40 + 0x80)]
      else if n ≤ 0xFFFF then
        [UInt8.ofNat (n / 4096 % 0x10 + 0xE0), UInt8.ofNat (n / 64 % 0x40 + 0x80),
          UInt8.ofNat (n % 0x40 + 0x80)]
      else
        [UInt8.ofNat (n / 262144 % 0x08 + 0xF0), UInt8.ofNat (n / 4096 % 0x40 + 0x80),
          UInt8.ofNat (n / 64 % 0x40 + 0x80), UInt8.ofNat (n % 0x40 + 0x80)] := by
  have hval : (Char.ofNat n).val.toNat = n := by
    rw [Char.ofNat, dif_pos hvalid]
    rfl
  unfold String.utf8EncodeChar
  rw [hval]

/-- The bytes that were read of a character of which a part is known. -/
inductive Begun : Partial → Bytes → Prop where
  | ofTwo {a : UInt8} (hlow : 0xC2 ≤ a.toNat) (hhigh : a.toNat < 0xE0) :
      Begun ⟨a.toNat - 0xC0, 1, 0x80, 0xBF⟩ [a]
  | ofThree {a : UInt8} (hlow : 0xE0 ≤ a.toNat) (hhigh : a.toNat < 0xF0) :
      Begun ⟨a.toNat - 0xE0, 2, if a.toNat = 0xE0 then 0xA0 else 0x80,
        if a.toNat = 0xED then 0x9F else 0xBF⟩ [a]
  | ofFour {a : UInt8} (hlow : 0xF0 ≤ a.toNat) (hhigh : a.toNat < 0xF5) :
      Begun ⟨a.toNat - 0xF0, 3, if a.toNat = 0xF0 then 0x90 else 0x80,
        if a.toNat = 0xF4 then 0x8F else 0xBF⟩ [a]
  | more {part : Partial} {bytes : Bytes} {b : UInt8} (hbegun : Begun part bytes)
      (hleft : 1 < part.left) (hlow : part.low ≤ b.toNat) (hhigh : b.toNat ≤ part.high) :
      Begun ⟨part.code * 64 + (b.toNat - 0x80), part.left - 1, 0x80, 0xBF⟩ (bytes ++ [b])

theorem eq_ofNat_of_toNat {b : UInt8} {n : Nat} (hmod : n % 256 = b.toNat) : UInt8.ofNat n = b := by
  apply UInt8.toNat_inj.mp
  rw [UInt8.toNat_ofNat']
  exact hmod

theorem encodeChar_two {a b : UInt8} (ha : 0xC2 ≤ a.toNat) (ha' : a.toNat < 0xE0)
    (hb : 0x80 ≤ b.toNat) (hb' : b.toNat ≤ 0xBF) :
    String.utf8EncodeChar (Char.ofNat ((a.toNat - 0xC0) * 64 + (b.toNat - 0x80))) = [a, b] := by
  rw [encodeChar_ofNat (Or.inl (by omega)), if_neg (by omega), if_pos (by omega)]
  rw [eq_ofNat_of_toNat (b := a) (by omega), eq_ofNat_of_toNat (b := b) (by omega)]

theorem encodeChar_three {a b c : UInt8} (ha : 0xE0 ≤ a.toNat) (ha' : a.toNat < 0xF0)
    (hb : (if a.toNat = 0xE0 then 0xA0 else 0x80) ≤ b.toNat)
    (hb' : b.toNat ≤ if a.toNat = 0xED then 0x9F else 0xBF)
    (hc : 0x80 ≤ c.toNat) (hc' : c.toNat ≤ 0xBF) :
    String.utf8EncodeChar
      (Char.ofNat (((a.toNat - 0xE0) * 64 + (b.toNat - 0x80)) * 64 + (c.toNat - 0x80))) =
        [a, b, c] := by
  have hvalid :
      (((a.toNat - 0xE0) * 64 + (b.toNat - 0x80)) * 64 + (c.toNat - 0x80)).isValidChar := by
    simp only [Nat.isValidChar]
    split at hb <;> split at hb' <;> omega
  have hwide : 0x800 ≤ ((a.toNat - 0xE0) * 64 + (b.toNat - 0x80)) * 64 + (c.toNat - 0x80) := by
    split at hb <;> omega
  have hb80 : 0x80 ≤ b.toNat := by split at hb <;> omega
  have hbBF : b.toNat ≤ 0xBF := by split at hb' <;> omega
  rw [encodeChar_ofNat hvalid, if_neg (by omega), if_neg (by omega), if_pos (by omega)]
  rw [eq_ofNat_of_toNat (b := a) (by omega), eq_ofNat_of_toNat (b := b) (by omega),
    eq_ofNat_of_toNat (b := c) (by omega)]

theorem encodeChar_four {a b c d : UInt8} (ha : 0xF0 ≤ a.toNat) (ha' : a.toNat < 0xF5)
    (hb : (if a.toNat = 0xF0 then 0x90 else 0x80) ≤ b.toNat)
    (hb' : b.toNat ≤ if a.toNat = 0xF4 then 0x8F else 0xBF)
    (hc : 0x80 ≤ c.toNat) (hc' : c.toNat ≤ 0xBF) (hd : 0x80 ≤ d.toNat) (hd' : d.toNat ≤ 0xBF) :
    String.utf8EncodeChar
      (Char.ofNat ((((a.toNat - 0xF0) * 64 + (b.toNat - 0x80)) * 64 + (c.toNat - 0x80)) * 64 +
        (d.toNat - 0x80))) = [a, b, c, d] := by
  have hvalid : ((((a.toNat - 0xF0) * 64 + (b.toNat - 0x80)) * 64 + (c.toNat - 0x80)) * 64 +
      (d.toNat - 0x80)).isValidChar := by
    simp only [Nat.isValidChar]
    split at hb <;> split at hb' <;> omega
  have hwide : 0x10000 ≤ (((a.toNat - 0xF0) * 64 + (b.toNat - 0x80)) * 64 + (c.toNat - 0x80)) * 64 +
      (d.toNat - 0x80) := by
    split at hb <;> omega
  have hb80 : 0x80 ≤ b.toNat := by split at hb <;> omega
  have hbBF : b.toNat ≤ 0xBF := by split at hb' <;> omega
  rw [encodeChar_ofNat hvalid, if_neg (by omega), if_neg (by omega), if_neg (by omega)]
  rw [eq_ofNat_of_toNat (b := a) (by omega), eq_ofNat_of_toNat (b := b) (by omega),
    eq_ofNat_of_toNat (b := c) (by omega), eq_ofNat_of_toNat (b := d) (by omega)]

theorem encodeChar_of_begun {part : Partial} {bytes : Bytes} {b : UInt8} (hbegun : Begun part bytes)
    (hleft : part.left ≤ 1) (hlow : part.low ≤ b.toNat) (hhigh : b.toNat ≤ part.high) :
    String.utf8EncodeChar (Char.ofNat (part.code * 64 + (b.toNat - 0x80))) = bytes ++ [b] := by
  cases hbegun with
  | ofTwo ha ha' => exact encodeChar_two ha ha' hlow hhigh
  | ofThree => simp at hleft
  | ofFour => simp at hleft
  | more hbegun hmore hlow' hhigh' =>
      cases hbegun with
      | ofTwo => simp at hmore
      | ofThree ha ha' => exact encodeChar_three ha ha' hlow' hhigh' hlow hhigh
      | ofFour => simp at hleft
      | more hbegun hmore' hlow'' hhigh'' =>
          cases hbegun with
          | ofTwo => simp at hmore'
          | ofThree => simp at hmore
          | ofFour ha ha' =>
              exact encodeChar_four ha ha' hlow'' hhigh'' hlow' hhigh' hlow hhigh
          | more hbegun hmore'' =>
              -- No character has more than four bytes.
              have hbound : ∀ {part bytes}, Begun part bytes → part.left ≤ 3 := by
                intro part bytes h
                induction h with
                | more _ _ _ _ ih => simp only; omega
                | _ => simp
              have := hbound hbegun
              simp only at hleft hmore hmore' hmore''
              omega

namespace Decoder

/-- The bytes that a decoder has read. -/
def Holds (decoder : Decoder) (bytes : Bytes) : Prop :=
  ∃ pending, bytes = encode decoder.chars.reverse ++ pending ∧
    match decoder.part with
    | none => pending = []
    | some part => Begun part pending

theorem holds_start : start.Holds [] :=
  ⟨[], rfl, rfl⟩

theorem holds_push {decoder : Decoder} {bytes : Bytes} {c : Char}
    (hbytes : bytes = encode decoder.chars.reverse ++ String.utf8EncodeChar c) :
    (decoder.push c).Holds bytes := by
  refine ⟨[], ?_, rfl⟩
  simp only [push, List.reverse_cons, encode_append, encode_singleton, List.append_nil]
  exact hbytes

theorem encodeChar_of_lead {byte : UInt8} {c : Char} (hlead : lead? byte = some (.char c)) :
    String.utf8EncodeChar c = [byte] := by
  simp only [lead?] at hlead
  split at hlead
  · obtain rfl := Lead.char.inj (Option.some.inj hlead)
    rw [encodeChar_ofNat (Or.inl (by omega)), if_pos (by omega), UInt8.ofNat_toNat]
  · split at hlead
    · cases hlead
    · repeat' split at hlead
      all_goals cases hlead

theorem begun_of_lead {byte : UInt8} {part : Partial} (hlead : lead? byte = some (.first part)) :
    Begun part [byte] := by
  simp only [lead?] at hlead
  split at hlead
  · cases hlead
  · split at hlead
    · cases hlead
    · split at hlead
      · obtain rfl := Lead.first.inj (Option.some.inj hlead)
        exact .ofTwo (by omega) (by omega)
      · split at hlead
        · obtain rfl := Lead.first.inj (Option.some.inj hlead)
          exact .ofThree (by omega) (by omega)
        · split at hlead
          · obtain rfl := Lead.first.inj (Option.some.inj hlead)
            exact .ofFour (by omega) (by omega)
          · cases hlead

theorem holds_step {decoder next : Decoder} {bytes : Bytes} {byte : UInt8}
    (hholds : decoder.Holds bytes) (hstep : decoder.step byte = .ok next) :
    next.Holds (bytes ++ [byte]) := by
  obtain ⟨pending, hbytes, hpart⟩ := hholds
  unfold step at hstep
  cases hdecoder : decoder.part with
  | none =>
      rw [hdecoder] at hstep hpart
      simp only at hstep hpart
      subst hpart
      cases hlead : lead? byte with
      | none =>
          rw [hlead] at hstep
          cases hstep
      | some lead =>
          rw [hlead] at hstep
          cases lead with
          | char c =>
              obtain rfl := Except.ok.inj hstep
              apply holds_push
              rw [hbytes, encodeChar_of_lead hlead, List.append_nil]
          | first part =>
              obtain rfl := Except.ok.inj hstep
              exact ⟨[byte], by rw [hbytes, List.append_nil], begun_of_lead hlead⟩
  | some part =>
      rw [hdecoder] at hstep hpart
      simp only at hstep hpart
      split at hstep
      case isFalse => cases hstep
      case isTrue hrange =>
        simp only [Bool.and_eq_true, decide_eq_true_eq] at hrange
        split at hstep
        · rename_i hleft
          obtain rfl := Except.ok.inj hstep
          apply holds_push
          rw [hbytes, encodeChar_of_begun hpart hleft hrange.1 hrange.2, List.append_assoc]
        · rename_i hleft
          obtain rfl := Except.ok.inj hstep
          refine ⟨pending ++ [byte], by rw [hbytes, List.append_assoc], ?_⟩
          exact .more hpart (by omega) hrange.1 hrange.2

theorem holds_run {decoder final : Decoder} {before bytes : Bytes}
    (hholds : decoder.Holds before) (hrun : bytes.foldlM step decoder = .ok final) :
    final.Holds (before ++ bytes) := by
  induction bytes generalizing decoder before with
  | nil =>
      obtain rfl := Except.ok.inj hrun
      rwa [List.append_nil]
  | cons byte bytes ih =>
      rw [List.foldlM_cons] at hrun
      cases hstep : decoder.step byte with
      | error offset =>
          rw [hstep] at hrun
          cases hrun
      | ok next =>
          rw [hstep] at hrun
          have hrest := ih (holds_step hholds hstep) hrun
          rwa [List.append_assoc] at hrest

theorem encode_of_finish {decoder : Decoder} {bytes : Bytes} {text : Text}
    (hholds : decoder.Holds bytes) (hfinish : decoder.finish = .ok text) : encode text = bytes := by
  obtain ⟨pending, hbytes, hpart⟩ := hholds
  unfold finish at hfinish
  cases hdecoder : decoder.part with
  | none =>
      rw [hdecoder] at hfinish hpart
      simp only at hpart
      subst hpart
      obtain rfl := Except.ok.inj hfinish
      rw [hbytes, List.append_nil]
  | some part =>
      rw [hdecoder] at hfinish
      cases hfinish

end Decoder

/-- A text that was decoded encodes to the bytes that it was decoded from. -/
theorem encode_of_decode {bytes : Bytes} {text : Text} (hdecode : decode bytes = .ok text) :
    encode text = bytes := by
  unfold decode at hdecode
  cases hrun : bytes.foldlM Decoder.step .start with
  | error offset =>
      rw [hrun] at hdecode
      cases hdecode
  | ok final =>
      rw [hrun] at hdecode
      exact Decoder.encode_of_finish (Decoder.holds_run Decoder.holds_start hrun) hdecode

theorem toNat_ofNat_of_lt {n : Nat} (hlt : n < 256) : (UInt8.ofNat n).toNat = n := by
  rw [UInt8.toNat_ofNat', Nat.mod_eq_of_lt hlt]

theorem lead?_one {n : Nat} (hlt : n < 0x80) : lead? (UInt8.ofNat n) = some (.char (Char.ofNat n)) := by
  simp only [lead?, toNat_ofNat_of_lt (show n < 256 by omega)]
  rw [if_pos hlt]

theorem lead?_two {n : Nat} (hlow : 2 ≤ n) (hhigh : n < 0x20) :
    lead? (UInt8.ofNat (n + 0xC0)) = some (.first ⟨n, 1, 0x80, 0xBF⟩) := by
  simp only [lead?, toNat_ofNat_of_lt (show n + 0xC0 < 256 by omega), Nat.add_sub_cancel]
  rw [if_neg (by omega), if_neg (by omega), if_pos (by omega)]

theorem lead?_three {n : Nat} (hlt : n < 0x10) :
    lead? (UInt8.ofNat (n + 0xE0)) =
      some (.first ⟨n, 2, if n = 0 then 0xA0 else 0x80, if n = 0xD then 0x9F else 0xBF⟩) := by
  simp only [lead?, toNat_ofNat_of_lt (show n + 0xE0 < 256 by omega), Nat.add_sub_cancel]
  rw [if_neg (by omega), if_neg (by omega), if_neg (by omega), if_pos (by omega)]
  simp

theorem lead?_four {n : Nat} (hlt : n < 5) :
    lead? (UInt8.ofNat (n + 0xF0)) =
      some (.first ⟨n, 3, if n = 0 then 0x90 else 0x80, if n = 4 then 0x8F else 0xBF⟩) := by
  simp only [lead?, toNat_ofNat_of_lt (show n + 0xF0 < 256 by omega), Nat.add_sub_cancel]
  rw [if_neg (by omega), if_neg (by omega), if_neg (by omega), if_neg (by omega), if_pos (by omega)]
  simp

namespace Decoder

variable {decoder : Decoder} {n : Nat}

theorem step_first {byte : UInt8} {part : Partial} (hpart : decoder.part = none)
    (hlead : lead? byte = some (.first part)) : decoder.step byte = .ok { decoder with part := some part } := by
  simp only [step, hpart, hlead]

section Continuation

variable {code left low high : Nat}

theorem step_next (hleft : 1 < left) (hlt : n < 64) (hlow : low ≤ n + 0x80) (hhigh : n + 0x80 ≤ high) :
    step { decoder with part := some ⟨code, left, low, high⟩ } (UInt8.ofNat (n + 0x80)) =
      .ok { decoder with part := some ⟨code * 64 + n, left - 1, 0x80, 0xBF⟩ } := by
  simp only [step, toNat_ofNat_of_lt (show n + 0x80 < 256 by omega), Nat.add_sub_cancel]
  rw [if_pos (by simp [hlow, hhigh]), if_neg (by omega)]

theorem step_last (hleft : left ≤ 1) (hlt : n < 64) (hlow : low ≤ n + 0x80) (hhigh : n + 0x80 ≤ high) :
    step { decoder with part := some ⟨code, left, low, high⟩ } (UInt8.ofNat (n + 0x80)) =
      .ok (decoder.push (Char.ofNat (code * 64 + n))) := by
  simp only [step, toNat_ofNat_of_lt (show n + 0x80 < 256 by omega), Nat.add_sub_cancel]
  rw [if_pos (by simp [hlow, hhigh]), if_pos hleft]
  rfl

end Continuation

theorem run_cons {next : Decoder} {byte : UInt8} (hstep : decoder.step byte = .ok next) (bytes : Bytes) :
    (byte :: bytes).foldlM step decoder = bytes.foldlM step next := by
  rw [List.foldlM_cons, hstep]
  rfl

theorem run_two (hpart : decoder.part = none) (hlow : 0x80 ≤ n) (hhigh : n ≤ 0x7FF) :
    [UInt8.ofNat (n / 64 % 0x20 + 0xC0), UInt8.ofNat (n % 0x40 + 0x80)].foldlM step decoder =
      .ok (decoder.push (Char.ofNat n)) := by
  have hlast : n % 0x40 + 0x80 ≤ 0xBF := by omega
  rw [run_cons (step_first hpart (lead?_two (by omega) (by omega))),
    run_cons (step_last (Nat.le_refl 1) (by omega) (Nat.le_add_left ..) hlast)]
  rw [show n / 64 % 0x20 * 64 + n % 0x40 = n by omega]
  rfl

theorem run_three (hpart : decoder.part = none) (hvalid : n.isValidChar) (hlow : 0x800 ≤ n) (hhigh : n ≤ 0xFFFF) :
    [UInt8.ofNat (n / 4096 % 0x10 + 0xE0), UInt8.ofNat (n / 64 % 0x40 + 0x80), UInt8.ofNat (n % 0x40 + 0x80)].foldlM
      step decoder = .ok (decoder.push (Char.ofNat n)) := by
  have hshort : (if n / 4096 % 0x10 = 0 then 0xA0 else 0x80) ≤ n / 64 % 0x40 + 0x80 := by
    split <;> omega
  have hsurrogate : n / 64 % 0x40 + 0x80 ≤ if n / 4096 % 0x10 = 0xD then 0x9F else 0xBF := by
    obtain hvalid | hvalid := hvalid <;> split <;> omega
  have hlast : n % 0x40 + 0x80 ≤ 0xBF := by omega
  rw [run_cons (step_first hpart (lead?_three (by omega))),
    run_cons (step_next (Nat.lt_succ_self 1) (by omega) hshort hsurrogate),
    run_cons (step_last (Nat.le_refl 1) (by omega) (Nat.le_add_left ..) hlast)]
  rw [show (n / 4096 % 0x10 * 64 + n / 64 % 0x40) * 64 + n % 0x40 = n by omega]
  rfl

theorem run_four (hpart : decoder.part = none) (hlow : 0x10000 ≤ n) (hhigh : n < 0x110000) :
    [UInt8.ofNat (n / 262144 % 0x08 + 0xF0), UInt8.ofNat (n / 4096 % 0x40 + 0x80), UInt8.ofNat (n / 64 % 0x40 + 0x80),
      UInt8.ofNat (n % 0x40 + 0x80)].foldlM step decoder = .ok (decoder.push (Char.ofNat n)) := by
  have hshort : (if n / 262144 % 0x08 = 0 then 0x90 else 0x80) ≤ n / 4096 % 0x40 + 0x80 := by
    split <;> omega
  have hbeyond : n / 4096 % 0x40 + 0x80 ≤ if n / 262144 % 0x08 = 4 then 0x8F else 0xBF := by
    split <;> omega
  have hthird : n / 64 % 0x40 + 0x80 ≤ 0xBF := by omega
  have hlast : n % 0x40 + 0x80 ≤ 0xBF := by omega
  rw [run_cons (step_first hpart (lead?_four (by omega))),
    run_cons (step_next (show 1 < 3 by decide) (by omega) hshort hbeyond),
    run_cons (step_next (Nat.lt_succ_self 1) (by omega) (Nat.le_add_left ..) hthird),
    run_cons (step_last (Nat.le_refl 1) (by omega) (Nat.le_add_left ..) hlast)]
  rw [show ((n / 262144 % 0x08 * 64 + n / 4096 % 0x40) * 64 + n / 64 % 0x40) * 64 + n % 0x40 = n by omega]
  rfl

theorem run_encodeChar (hpart : decoder.part = none) (c : Char) :
    (String.utf8EncodeChar c).foldlM step decoder = .ok (decoder.push c) := by
  have hvalid : c.toNat.isValidChar := c.valid
  rw [← Char.ofNat_toNat c]
  generalize c.toNat = n at hvalid
  rw [encodeChar_ofNat hvalid]
  split
  · have hstep : decoder.step (UInt8.ofNat n) = .ok (decoder.push (Char.ofNat n)) := by
      simp only [step, hpart, lead?_one (show n < 0x80 by omega)]
    exact run_cons hstep []
  split
  · exact run_two hpart (by omega) (by omega)
  split
  · exact run_three hpart hvalid (by omega) (by omega)
  · exact run_four hpart (by omega) (by obtain hlow | ⟨-, hhigh⟩ := hvalid <;> omega)

theorem run_encode (text : Text) :
    ∀ decoder : Decoder, decoder.part = none → ∃ final, (encode text).foldlM step decoder = .ok final ∧
      final.part = none ∧ final.chars = text.reverse ++ decoder.chars := by
  induction text with
  | nil => exact fun decoder hpart => ⟨decoder, rfl, hpart, rfl⟩
  | cons c text ih =>
      intro decoder hpart
      obtain ⟨final, hrun, hfinal, hchars⟩ := ih (decoder.push c) rfl
      refine ⟨final, ?_, hfinal, ?_⟩
      · rw [encode, List.flatMap_cons, List.foldlM_append, run_encodeChar hpart]
        exact hrun
      · rw [hchars, push]
        simp

end Decoder

/-- A text that was encoded is decoded again. -/
theorem decode_encode (text : Text) : decode (encode text) = .ok text := by
  obtain ⟨final, hrun, hpart, hchars⟩ := Decoder.run_encode text .start rfl
  unfold decode
  rw [hrun]
  change final.finish = _
  rw [Decoder.finish, hpart, hchars, Decoder.start, List.append_nil, List.reverse_reverse]

end GoGraft.Utf8
