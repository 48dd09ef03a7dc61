import Mathlib.Data.List.Basic

/-!
# `Mocop.Lib.Utf8`: a decoder of UTF-8 that is fed byte by byte

`Utf8Decoder` is the decoder of browsers. It keeps what it knows of a character whose bytes are
not all there, and writes the replacement character for bytes that are none. `decode_append` says
that the pieces in which the bytes arrive do not matter, and `decode_encode` that the bytes of a
text are decoded as the text.

`TextDecoder` drops a byte order mark in front.
-/

set_option autoImplicit false

namespace Mocop

/-- A decoder between two bytes: the bits so far, how many bytes are needed, and the bounds of the
next one. -/
structure Utf8Decoder where
  codePoint : ℕ := 0
  needed : ℕ := 0
  lower : ℕ := 0x80
  upper : ℕ := 0xbf
  deriving DecidableEq

variable {bytes : List UInt8}

namespace Utf8Decoder

/-- Reads the first byte of a character. -/
def lead (byte : ℕ) : Utf8Decoder × List Char :=
  if byte ≤ 0x7f then ({}, [Char.ofNat byte])
  else if 0xc2 ≤ byte ∧ byte ≤ 0xdf then ({ codePoint := byte % 32, needed := 1 }, [])
  else if 0xe0 ≤ byte ∧ byte ≤ 0xef then
    -- Neither a longer form of a shorter character nor half of a surrogate pair.
    ({ codePoint := byte % 16
       needed := 2
       lower := if byte = 0xe0 then 0xa0 else 0x80
       upper := if byte = 0xed then 0x9f else 0xbf }, [])
  else if 0xf0 ≤ byte ∧ byte ≤ 0xf4 then
    ({ codePoint := byte % 8
       needed := 3
       lower := if byte = 0xf0 then 0x90 else 0x80
       upper := if byte = 0xf4 then 0x8f else 0xbf }, [])
  else ({}, ['\uFFFD'])

/-- Reads a byte. -/
def push (decoder : Utf8Decoder) (byte : UInt8) : Utf8Decoder × List Char :=
  if decoder.needed = 0 then lead byte.toNat
  else if decoder.lower ≤ byte.toNat ∧ byte.toNat ≤ decoder.upper then
    let codePoint := decoder.codePoint * 64 + byte.toNat % 64
    if decoder.needed = 1 then ({}, [Char.ofNat codePoint])
    else ({ codePoint := codePoint, needed := decoder.needed - 1 }, [])
  else
    -- The byte is read again, as the first one of a character.
    ((lead byte.toNat).1, '\uFFFD' :: (lead byte.toNat).2)

/-- Reads some bytes. -/
def decode (decoder : Utf8Decoder) : List UInt8 → Utf8Decoder × List Char
  | [] => (decoder, [])
  | byte :: rest =>
    let later := (decoder.push byte).1.decode rest
    (later.1, (decoder.push byte).2 ++ later.2)

/-- The pieces of the bytes do not matter. -/
theorem decode_append (decoder : Utf8Decoder) (bytes more : List UInt8) :
    decoder.decode (bytes ++ more)
      = (((decoder.decode bytes).1.decode more).1,
        (decoder.decode bytes).2 ++ ((decoder.decode bytes).1.decode more).2) := by
  induction bytes generalizing decoder with
  | nil => rfl
  | cons byte rest ih => rw [List.cons_append, decode, decode, ih, List.append_assoc]

theorem toNat_byte {n : ℕ} (h : n < 256) : (UInt8.ofNat n).toNat = n := UInt8.toNat_ofNat_of_lt h

/-- The first of two bytes. -/
theorem push_lead_two {bits : ℕ} (h : 2 ≤ bits) (hle : bits < 32) :
    ({} : Utf8Decoder).push (UInt8.ofNat (bits + 0xc0)) = ({ codePoint := bits, needed := 1 }, [])
    := by
  have hbyte : (UInt8.ofNat (bits + 0xc0)).toNat = bits + 0xc0 :=
    toNat_byte (by omega)
  rw [push, if_pos rfl, lead, hbyte, if_neg (by omega), if_pos (by omega)]
  congr 2
  omega

/-- The first of three bytes. -/
theorem push_lead_three {bits : ℕ} (hle : bits < 16) :
    ({} : Utf8Decoder).push (UInt8.ofNat (bits + 0xe0))
      = ({ codePoint := bits
           needed := 2
           lower := if bits = 0 then 0xa0 else 0x80
           upper := if bits = 13 then 0x9f else 0xbf }, []) := by
  have hbyte : (UInt8.ofNat (bits + 0xe0)).toNat = bits + 0xe0 :=
    toNat_byte (by omega)
  rw [push, if_pos rfl, lead, hbyte, if_neg (by omega), if_neg (by omega), if_pos (by omega)]
  have hlower : bits + 0xe0 = 0xe0 ↔ bits = 0 := by omega
  have hupper : bits + 0xe0 = 0xed ↔ bits = 13 := by omega
  have hbits : (bits + 0xe0) % 16 = bits := by omega
  simp only [hlower, hupper, hbits]

/-- The first of four bytes. -/
theorem push_lead_four {bits : ℕ} (hle : bits ≤ 4) :
    ({} : Utf8Decoder).push (UInt8.ofNat (bits + 0xf0))
      = ({ codePoint := bits
           needed := 3
           lower := if bits = 0 then 0x90 else 0x80
           upper := if bits = 4 then 0x8f else 0xbf }, []) := by
  have hbyte : (UInt8.ofNat (bits + 0xf0)).toNat = bits + 0xf0 :=
    toNat_byte (by omega)
  rw [push, if_pos rfl, lead, hbyte, if_neg (by omega), if_neg (by omega), if_neg (by omega),
    if_pos (by omega)]
  have hlower : bits + 0xf0 = 0xf0 ↔ bits = 0 := by omega
  have hupper : bits + 0xf0 = 0xf4 ↔ bits = 4 := by omega
  have hbits : (bits + 0xf0) % 8 = bits := by omega
  simp only [hlower, hupper, hbits]

/-- A byte in the middle. -/
theorem push_next {codePoint needed lower upper bits : ℕ} (hbits : bits < 64)
    (hlower : lower ≤ bits + 0x80) (hupper : bits + 0x80 ≤ upper) :
    (Utf8Decoder.mk codePoint (needed + 2) lower upper).push (UInt8.ofNat (bits + 0x80))
      = ({ codePoint := codePoint * 64 + bits, needed := needed + 1 }, []) := by
  have hbyte : (UInt8.ofNat (bits + 0x80)).toNat = bits + 0x80 :=
    toNat_byte (by omega)
  have hmod : (bits + 0x80) % 64 = bits := by omega
  have hpositive : needed + 2 ≠ 0 := Nat.succ_ne_zero _
  have hlong : needed + 2 ≠ 1 := by omega
  simp only [push, hbyte, hmod, if_neg hpositive, if_pos (And.intro hlower hupper), if_neg hlong]
  rfl

/-- The last byte. -/
theorem push_last {codePoint lower upper bits : ℕ} (hbits : bits < 64)
    (hlower : lower ≤ bits + 0x80) (hupper : bits + 0x80 ≤ upper) :
    (Utf8Decoder.mk codePoint 1 lower upper).push (UInt8.ofNat (bits + 0x80))
      = ({}, [Char.ofNat (codePoint * 64 + bits)]) := by
  have hbyte : (UInt8.ofNat (bits + 0x80)).toNat = bits + 0x80 :=
    toNat_byte (by omega)
  have hmod : (bits + 0x80) % 64 = bits := by omega
  simp only [push, hbyte, hmod, if_neg Nat.one_ne_zero, if_pos (And.intro hlower hupper), if_true]

/-- The bytes of a character are decoded as the character. -/
theorem decode_utf8EncodeChar (c : Char) :
    ({} : Utf8Decoder).decode (String.utf8EncodeChar c) = ({}, [c]) := by
  have hvalid : c.val.toNat < 0xd800 ∨ 0xdfff < c.val.toNat ∧ c.val.toNat < 0x110000 := c.valid
  have hchar : Char.ofNat c.val.toNat = c := Char.ofNat_toNat c
  unfold String.utf8EncodeChar
  dsimp only
  generalize c.val.toNat = code at hvalid hchar
  split
  · next hone =>
    have hbyte : (UInt8.ofNat code).toNat = code := toNat_byte (by omega)
    rw [decode, decode, push, if_pos rfl, lead, hbyte, if_pos hone, hchar]
    rfl
  · split
    · rw [decode, decode, decode, push_lead_two (by omega) (by omega),
        push_last (by omega) (by omega) (by omega)]
      have hcode : code / 64 % 32 * 64 + code % 64 = code := by omega
      rw [hcode, hchar]
      rfl
    · split
      · -- The bounds of the second byte hold because the character is no surrogate.
        have hlower : (if code / 4096 % 16 = 0 then 0xa0 else 0x80) ≤ code / 64 % 64 + 0x80 := by
          split <;> omega
        have hupper : code / 64 % 64 + 0x80 ≤ if code / 4096 % 16 = 13 then 0x9f else 0xbf := by
          split <;> omega
        rw [decode, decode, decode, decode, push_lead_three (by omega),
          push_next (by omega) hlower hupper, push_last (by omega) (by omega) (by omega)]
        have hcode : (code / 4096 % 16 * 64 + code / 64 % 64) * 64 + code % 64 = code := by omega
        rw [hcode, hchar]
        rfl
      · have hlower : (if code / 262144 % 8 = 0 then 0x90 else 0x80)
            ≤ code / 4096 % 64 + 0x80 := by
          split <;> omega
        have hupper : code / 4096 % 64 + 0x80
            ≤ if code / 262144 % 8 = 4 then 0x8f else 0xbf := by
          split <;> omega
        rw [decode, decode, decode, decode, decode, push_lead_four (by omega),
          push_next (by omega) hlower hupper, push_next (by omega) (by omega) (by omega),
          push_last (by omega) (by omega) (by omega)]
        have hcode : ((code / 262144 % 8 * 64 + code / 4096 % 64) * 64 + code / 64 % 64) * 64
            + code % 64 = code := by omega
        rw [hcode, hchar]
        rfl

/-- The bytes of a text are decoded as the text. -/
theorem decode_encode (text : List Char) :
    ({} : Utf8Decoder).decode (text.flatMap String.utf8EncodeChar) = ({}, text) := by
  induction text with
  | nil => rfl
  | cons c rest ih => rw [List.flatMap_cons, decode_append, decode_utf8EncodeChar, ih]; rfl

/-- A beginning of the bytes of a text is decoded as a beginning of the text. -/
theorem decode_prefix {text : List Char} (h : bytes <+: text.flatMap String.utf8EncodeChar) :
    (({} : Utf8Decoder).decode bytes).2 <+: text := by
  obtain ⟨more, hmore⟩ := h
  have hwhole := decode_encode text
  rw [← hmore, decode_append] at hwhole
  exact ⟨_, congrArg Prod.snd hwhole⟩

end Utf8Decoder

/-! ### The byte order mark -/

/-- A decoder that drops a byte order mark in front of its text. -/
structure TextDecoder where
  utf8 : Utf8Decoder := {}
  started : Bool := false

namespace TextDecoder

/-- `decoder.decode(bytes, { stream: true })` -/
def decode (decoder : TextDecoder) (bytes : List UInt8) : TextDecoder × List Char :=
  let read := decoder.utf8.decode bytes
  match read.2 with
  | [] => ({ decoder with utf8 := read.1 }, [])
  | c :: rest =>
    ({ utf8 := read.1, started := true },
      if decoder.started = false ∧ c = '\uFEFF' then rest else c :: rest)

theorem decode_of_nil {decoder : TextDecoder} {next : Utf8Decoder}
    (h : decoder.utf8.decode bytes = (next, [])) :
    decoder.decode bytes = ({ decoder with utf8 := next }, []) := by
  unfold decode
  rw [h]

theorem decode_of_cons {decoder : TextDecoder} {next : Utf8Decoder} {c : Char} {rest : List Char}
    (h : decoder.utf8.decode bytes = (next, c :: rest)) :
    decoder.decode bytes = ({ utf8 := next, started := true },
      if decoder.started = false ∧ c = '\uFEFF' then rest else c :: rest) := by
  unfold decode
  rw [h]

/-- The pieces of the bytes do not matter. -/
theorem decode_append (decoder : TextDecoder) (bytes more : List UInt8) :
    decoder.decode (bytes ++ more)
      = (((decoder.decode bytes).1.decode more).1,
        (decoder.decode bytes).2 ++ ((decoder.decode bytes).1.decode more).2) := by
  have hwhole := Utf8Decoder.decode_append decoder.utf8 bytes more
  rcases hfront : decoder.utf8.decode bytes with ⟨next, front⟩
  rw [hfront] at hwhole
  rcases hback : next.decode more with ⟨final, back⟩
  rw [hback] at hwhole
  cases front with
  | nil =>
    rw [decode_of_nil hfront]
    cases back with
    | nil => rw [decode_of_nil hwhole, decode_of_nil hback]; rfl
    | cons d later => rw [decode_of_cons hwhole, decode_of_cons hback]; rfl
  | cons c rest =>
    -- The mark is dropped, or not, before the second piece.
    rw [decode_of_cons hwhole, decode_of_cons hfront]
    cases back with
    | nil =>
      rw [decode_of_nil hback]
      simp only [List.append_eq, List.append_nil]
    | cons d later =>
      rw [decode_of_cons hback]
      split <;> rfl

/-- Without a mark in front the text is the one of the bytes. -/
theorem decode_eq (h : (({} : Utf8Decoder).decode bytes).2.head? ≠ some '\uFEFF') :
    (({} : TextDecoder).decode bytes).2 = (({} : Utf8Decoder).decode bytes).2 := by
  unfold decode
  dsimp only
  split
  · next hnil => rw [hnil]
  · next c rest hcons =>
    rw [hcons] at h ⊢
    exact if_neg fun hmark => h (congrArg some hmark.2)

end TextDecoder

end Mocop
