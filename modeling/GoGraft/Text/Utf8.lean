import GoGraft.Text.Basic

/-! UTF-8. Decoding is strict: overlong forms, surrogates, codes beyond the last one and sequences that break off
are refused, at the offset where the offending sequence begins. -/

namespace GoGraft

abbrev Bytes := List UInt8

namespace Utf8

def encode (t : Text) : Bytes :=
  t.flatMap String.utf8EncodeChar

/-- A character of which some bytes are still to come. The next byte lies between `low` and `high`. -/
structure Partial where
  code : Nat
  left : Nat
  low : Nat
  high : Nat
deriving DecidableEq, Repr

/-- What a first byte begins: a character of its own, or one of several bytes. -/
inductive Lead where
  | char (c : Char)
  | first (part : Partial)
deriving DecidableEq, Repr

def lead? (byte : UInt8) : Option Lead :=
  let n := byte.toNat
  if n < 0x80 then
    some (.char (Char.ofNat n))
  else if n < 0xC2 then
    none
  else if n < 0xE0 then
    some (.first ⟨n - 0xC0, 1, 0x80, 0xBF⟩)
  else if n < 0xF0 then
    let low := if n = 0xE0 then 0xA0 else 0x80
    let high := if n = 0xED then 0x9F else 0xBF
    some (.first ⟨n - 0xE0, 2, low, high⟩)
  else if n < 0xF5 then
    let low := if n = 0xF0 then 0x90 else 0x80
    let high := if n = 0xF4 then 0x8F else 0xBF
    some (.first ⟨n - 0xF0, 3, low, high⟩)
  else
    none

structure Decoder where
  /-- The characters so far, the last one first. -/
  chars : Text
  /-- The number of bytes of those characters. -/
  offset : Nat
  part : Option Partial
deriving DecidableEq, Repr

namespace Decoder

def start : Decoder :=
  ⟨[], 0, none⟩

def push (decoder : Decoder) (c : Char) : Decoder :=
  ⟨c :: decoder.chars, decoder.offset + c.utf8Size, none⟩

def step (decoder : Decoder) (byte : UInt8) : Except Nat Decoder :=
  match decoder.part with
  | none =>
      match lead? byte with
      | none => .error decoder.offset
      | some (.char c) => .ok (decoder.push c)
      | some (.first part) => .ok { decoder with part := some part }
  | some part =>
      let n := byte.toNat
      if part.low ≤ n && n ≤ part.high then
        let code := part.code * 64 + (n - 0x80)
        if part.left ≤ 1 then
          .ok (decoder.push (Char.ofNat code))
        else
          .ok { decoder with part := some ⟨code, part.left - 1, 0x80, 0xBF⟩ }
      else
        .error decoder.offset

def finish (decoder : Decoder) : Except Nat Text :=
  match decoder.part with
  | none => .ok decoder.chars.reverse
  | some _ => .error decoder.offset

end Decoder

/-- The text of some bytes, or the length of the longest part in front that is a text. -/
def decode (bytes : Bytes) : Except Nat Text := do
  (← bytes.foldlM Decoder.step .start).finish

end Utf8

end GoGraft
