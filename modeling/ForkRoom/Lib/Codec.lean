/-
# `Lib.Codec` — texts, bytes, and base64

A text of Python is a list of code points, the surrogates among them.  UTF-8 encodes every
text without a surrogate (`encode`), and decodes the bytes of such a text only (`decode`).

    urlsafe_b64encode    three bytes in four letters, '=' behind an incomplete group
    urlsafe_b64decode    skips what is no letter; a group of one letter, or an incomplete
                         one without its '=', is an error

Decoding what was encoded gives the bytes back (`decode64_encode64`).
-/
import Mathlib.Data.List.Basic
import Mathlib.Data.Nat.Basic

namespace Codec

/-! ## Texts -/

abbrev CodePoint := Fin 1114112

abbrev Text := List CodePoint

def CodePoint.ofChar (c : Char) : CodePoint :=
  ⟨c.toNat, by
    have h := c.valid
    have hn : c.val.toNat = c.toNat := rfl
    simp only [UInt32.isValidChar, Nat.isValidChar, hn] at h
    omega⟩

def Text.ofString (s : String) : Text := s.toList.map CodePoint.ofChar

/-- The character of a code point that is no surrogate. -/
def CodePoint.char? (c : CodePoint) : Option Char :=
  if c.val.isValidChar then some (Char.ofNat c.val) else none

/-- The characters of a text; a surrogate, which is none, becomes the replacement character. -/
def Text.chars (text : Text) : List Char :=
  text.map fun c => (CodePoint.char? c).getD (Char.ofNat 65533)

/-- `text.encode()`; `none` is a `UnicodeEncodeError`. -/
def encode (text : Text) : Option (List UInt8) :=
  (text.mapM CodePoint.char?).map (·.flatMap String.utf8EncodeChar)

/-- `data.decode()`; `none` is a `UnicodeDecodeError`. -/
def decode (data : List UInt8) : Option (List Char) :=
  data.toByteArray.utf8Decode?.map Array.toList

theorem decode_utf8 (text : List Char) :
    decode (text.flatMap String.utf8EncodeChar) = some text := by
  have h := @List.utf8Decode?_utf8Encode text
  rw [List.utf8Encode] at h
  rw [decode, h]
  rfl

/-! ## Base64 -/

/-- The letters, `-` and `_` last. -/
def letter (sextet : Nat) : UInt8 :=
  if sextet < 26 then .ofNat (65 + sextet)
  else if sextet < 52 then .ofNat (71 + sextet)
  else if sextet < 62 then .ofNat (sextet - 4)
  else if sextet = 62 then 45
  else 95

/-- What a byte stands for: a letter of the URL-safe alphabet or of the usual one. -/
def sextet? (b : UInt8) : Option Nat :=
  if 65 ≤ b ∧ b ≤ 90 then some (b.toNat - 65)
  else if 97 ≤ b ∧ b ≤ 122 then some (b.toNat - 71)
  else if 48 ≤ b ∧ b ≤ 57 then some (b.toNat + 4)
  else if b = 45 ∨ b = 43 then some 62
  else if b = 95 ∨ b = 47 then some 63
  else none

/-- '=' -/
def pad : UInt8 := 61

/-- `base64.urlsafe_b64encode(data)` -/
def encode64 : List UInt8 → List UInt8
  | [] => []
  | [a] => [letter (a.toNat / 4), letter (a.toNat % 4 * 16), pad, pad]
  | [a, b] => [letter (a.toNat / 4), letter (a.toNat % 4 * 16 + b.toNat / 16),
      letter (b.toNat % 16 * 4), pad]
  | a :: b :: c :: data => letter (a.toNat / 4) :: letter (a.toNat % 4 * 16 + b.toNat / 16) ::
      letter (b.toNat % 16 * 4 + c.toNat / 64) :: letter (c.toNat % 64) :: encode64 data

/-- `binascii.a2b_base64`: the place in the group, the bits that are left over, and the
pads since the last letter. -/
def decode64At (place left pads : Nat) : List UInt8 → Option (List UInt8)
  | [] => if place = 0 then some [] else none
  | b :: text =>
      if b = pad then
        if 2 ≤ place ∧ 4 ≤ place + (pads + 1) then some []
        else decode64At place left (if 2 ≤ place then pads + 1 else pads) text
      else
        match sextet? b with
        | none => decode64At place left pads text
        | some v =>
            match place with
            | 0 => decode64At 1 v 0 text
            | 1 => (decode64At 2 (v % 16) 0 text).map (.ofNat (left * 4 + v / 16) :: ·)
            | 2 => (decode64At 3 (v % 4) 0 text).map (.ofNat (left * 16 + v / 4) :: ·)
            | _ => (decode64At 0 0 0 text).map (.ofNat (left * 64 + v) :: ·)

/-- `base64.urlsafe_b64decode(text)`; `none` is a `binascii.Error`. -/
def decode64 (text : List UInt8) : Option (List UInt8) := decode64At 0 0 0 text

theorem letter_spec {v : Nat} (h : v < 64) :
    letter v ≠ pad ∧ sextet? (letter v) = some v ∧ letter v < 128 := by
  revert v
  decide

section
variable {v left pads place : Nat} {text : List UInt8}

/-- A letter is read as its six bits. -/
theorem decode64At_zero (h : v < 64) :
    decode64At 0 left pads (letter v :: text) = decode64At 1 v 0 text := by
  obtain ⟨hpad, hsextet, -⟩ := letter_spec h
  simp only [decode64At, if_neg hpad, hsextet]

theorem decode64At_one (h : v < 64) : decode64At 1 left pads (letter v :: text) =
    (decode64At 2 (v % 16) 0 text).map (.ofNat (left * 4 + v / 16) :: ·) := by
  obtain ⟨hpad, hsextet, -⟩ := letter_spec h
  simp only [decode64At, if_neg hpad, hsextet]

theorem decode64At_two (h : v < 64) : decode64At 2 left pads (letter v :: text) =
    (decode64At 3 (v % 4) 0 text).map (.ofNat (left * 16 + v / 4) :: ·) := by
  obtain ⟨hpad, hsextet, -⟩ := letter_spec h
  simp only [decode64At, if_neg hpad, hsextet]

theorem decode64At_three (h : v < 64) : decode64At 3 left pads (letter v :: text) =
    (decode64At 0 0 0 text).map (.ofNat (left * 64 + v) :: ·) := by
  obtain ⟨hpad, hsextet, -⟩ := letter_spec h
  simp only [decode64At, if_neg hpad, hsextet]

end

theorem ofNat_eq {a : UInt8} {n : Nat} (h : n = a.toNat) : UInt8.ofNat n = a := by
  rw [h, UInt8.ofNat_toNat]

theorem decode64At_encode64 (data : List UInt8) (left pads : Nat) :
    decode64At 0 left pads (encode64 data) = some data := by
  induction data using encode64.induct generalizing left pads with
  | case1 => rfl
  | case2 a =>
      have ha := a.toNat_lt
      rw [encode64, decode64At_zero (by omega), decode64At_one (by omega),
        ofNat_eq (a := a) (by omega)]
      rfl
  | case3 a b =>
      have ha := a.toNat_lt
      have hb := b.toNat_lt
      rw [encode64, decode64At_zero (by omega), decode64At_one (by omega),
        decode64At_two (by omega), ofNat_eq (a := a) (by omega), ofNat_eq (a := b) (by omega)]
      rfl
  | case4 a b c data ih =>
      have ha := a.toNat_lt
      have hb := b.toNat_lt
      have hc := c.toNat_lt
      rw [encode64, decode64At_zero (by omega), decode64At_one (by omega),
        decode64At_two (by omega), decode64At_three (by omega), ih,
        ofNat_eq (a := a) (by omega), ofNat_eq (a := b) (by omega), ofNat_eq (a := c) (by omega)]
      rfl

theorem decode64_encode64 (data : List UInt8) : decode64 (encode64 data) = some data :=
  decode64At_encode64 data 0 0

/-! ## ASCII -/

theorem encode64_ascii (data : List UInt8) : ∀ b ∈ encode64 data, b < 128 := by
  have hletter : ∀ v, v < 64 → letter v < 128 := fun v h => (letter_spec h).2.2
  induction data using encode64.induct with
  | case1 =>
      intro b hb
      cases hb
  | case2 a =>
      have ha := a.toNat_lt
      simp only [encode64, List.forall_mem_cons]
      exact ⟨hletter _ (by omega), hletter _ (by omega), by decide, by decide, fun _ h => nomatch h⟩
  | case3 a b =>
      have ha := a.toNat_lt
      have hb := b.toNat_lt
      simp only [encode64, List.forall_mem_cons]
      exact ⟨hletter _ (by omega), hletter _ (by omega), hletter _ (by omega), by decide,
        fun _ h => nomatch h⟩
  | case4 a b c data ih =>
      have ha := a.toNat_lt
      have hb := b.toNat_lt
      have hc := c.toNat_lt
      simp only [encode64, List.forall_mem_cons]
      exact ⟨hletter _ (by omega), hletter _ (by omega), hletter _ (by omega), hletter _ (by omega),
        ih⟩

/-- Bytes of ASCII as characters. -/
def asciiChars (bytes : List UInt8) : List Char := bytes.map fun b => Char.ofNat b.toNat

theorem char?_ofChar (c : Char) : (CodePoint.ofChar c).char? = some c := by
  have h : (CodePoint.ofChar c).val.isValidChar := c.valid
  rw [CodePoint.char?, if_pos h]
  exact congrArg some (Char.ofNat_toNat c)

theorem chars_ofChars (chars : List Char) : Text.chars (chars.map CodePoint.ofChar) = chars := by
  rw [Text.chars, List.map_map]
  refine List.map_id'' (fun c => ?_) chars
  rw [Function.comp_apply, char?_ofChar]
  rfl

theorem encode_ofChars (chars : List Char) :
    encode (chars.map CodePoint.ofChar) = some (chars.flatMap String.utf8EncodeChar) := by
  have h : (chars.map CodePoint.ofChar).mapM CodePoint.char? = some chars := by
    induction chars with
    | nil => rfl
    | cons c chars ih =>
        rw [List.map_cons, List.mapM_cons, char?_ofChar, ih]
        rfl
  rw [encode, h]
  rfl

theorem utf8EncodeChar_ascii {b : UInt8} (h : b < 128) :
    String.utf8EncodeChar (Char.ofNat b.toNat) = [b] := by
  have hall : ∀ n : Fin 128, String.utf8EncodeChar (Char.ofNat n.val) = [UInt8.ofNat n.val] := by
    decide
  have hlt : b.toNat < 128 := h
  rw [hall ⟨b.toNat, hlt⟩, UInt8.ofNat_toNat]

/-- A text of ASCII is encoded byte by byte. -/
theorem encode_ascii {bytes : List UInt8} (h : ∀ b ∈ bytes, b < 128) :
    encode ((asciiChars bytes).map CodePoint.ofChar) = some bytes := by
  rw [encode_ofChars, asciiChars, List.flatMap_map]
  congr 1
  induction bytes with
  | nil => rfl
  | cons b bytes ih =>
      obtain ⟨hb, hbytes⟩ := List.forall_mem_cons.mp h
      rw [List.flatMap_cons, utf8EncodeChar_ascii hb, ih hbytes]
      rfl

end Codec
