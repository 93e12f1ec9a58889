/-
  Subject:   Base64 with the standard alphabet and padding (RFC 4648), as the `STANDARD` engine of
             the `base64` crate has it: decoding wants the padding and zero trailing bits.

  * `base64Decode_encode` -- **what was encoded is decoded**.
-/
import Hapcli.Rust.Text

namespace Hapcli.Rust

/-- The standard alphabet. -/
def base64Alphabet : List Char :=
  "ABCDEFGHIJKLMNOPQRSTUVWXYZabcdefghijklmnopqrstuvwxyz0123456789+/".toList

/-- The character of six bits. -/
def encodeSextet (n : Nat) : Char := base64Alphabet.getD n 'A'

/-- The six bits of a character. -/
def decodeSextet (c : Char) : Option Nat := base64Alphabet.findIdx? (· == c)

/-- Bytes to base64, three by three. -/
def base64Encode : List UInt8 → Str
  | b₀ :: b₁ :: b₂ :: bytes =>
    let n := b₀.toNat * 65536 + b₁.toNat * 256 + b₂.toNat
    encodeSextet (n / 262144) :: encodeSextet (n / 4096 % 64) :: encodeSextet (n / 64 % 64) ::
      encodeSextet (n % 64) :: base64Encode bytes
  | [b₀, b₁] =>
    let n := b₀.toNat * 1024 + b₁.toNat * 4
    [encodeSextet (n / 4096), encodeSextet (n / 64 % 64), encodeSextet (n % 64), '=']
  | [b₀] =>
    let n := b₀.toNat * 16
    [encodeSextet (n / 64), encodeSextet (n % 64), '=', '=']
  | [] => []

/-- The byte of a group with two padding characters. -/
def decodeOne (c₀ c₁ : Char) : Option (List UInt8) := do
  let n := (← decodeSextet c₀) * 64 + (← decodeSextet c₁)
  if n % 16 = 0 then some [UInt8.ofNat (n / 16)] else none

/-- The bytes of a group with one padding character. -/
def decodeTwo (c₀ c₁ c₂ : Char) : Option (List UInt8) := do
  let n := (← decodeSextet c₀) * 4096 + (← decodeSextet c₁) * 64 + (← decodeSextet c₂)
  if n % 4 = 0 then some [UInt8.ofNat (n / 1024), UInt8.ofNat (n / 4 % 256)] else none

/-- The bytes of a full group. -/
def decodeThree (c₀ c₁ c₂ c₃ : Char) : Option (List UInt8) := do
  let n := (← decodeSextet c₀) * 262144 + (← decodeSextet c₁) * 4096 + (← decodeSextet c₂) * 64 +
    (← decodeSextet c₃)
  some [UInt8.ofNat (n / 65536), UInt8.ofNat (n / 256 % 256), UInt8.ofNat (n % 256)]

/-- Base64 to bytes, four characters by four; padding only at the end. -/
def base64Decode : Str → Option (List UInt8)
  | c₀ :: c₁ :: c₂ :: c₃ :: text =>
    if c₃ = '=' ∧ text = [] then
      if c₂ = '=' then decodeOne c₀ c₁ else decodeTwo c₀ c₁ c₂
    else do
      let group ← decodeThree c₀ c₁ c₂ c₃
      let rest ← base64Decode text
      return group ++ rest
  | [] => some []
  | _ => none

theorem sextets {n : Nat} (h : n < 64) :
    decodeSextet (encodeSextet n) = some n ∧ encodeSextet n ≠ '=' := by
  have hcodes : base64Alphabet = (List.range' 65 26 ++ List.range' 97 26 ++ List.range' 48 10 ++
      [43, 47]).map Char.ofNat := by decide +kernel
  rw [decodeSextet, encodeSextet, hcodes]
  revert n
  decide +kernel

theorem decodeSextet_encode {n : Nat} (h : n < 64) : decodeSextet (encodeSextet n) = some n :=
  (sextets h).1

theorem encodeSextet_ne_pad {n : Nat} (h : n < 64) : encodeSextet n ≠ '=' := (sextets h).2

theorem ofNat_eq {b : UInt8} {n : Nat} (h : n = b.toNat) : UInt8.ofNat n = b := by
  rw [h, UInt8.ofNat_toNat]

theorem base64Encode_alphabet (bytes : List UInt8) :
    ∀ c ∈ base64Encode bytes, c ∈ base64Alphabet ∨ c = '=' := by
  have hsextet : ∀ n, encodeSextet n ∈ base64Alphabet := by
    intro n
    rw [encodeSextet, List.getD_eq_getElem?_getD]
    cases h : base64Alphabet[n]? with
    | none => decide
    | some c => exact List.mem_of_getElem? h
  induction bytes using base64Encode.induct with
  | case1 b₀ b₁ b₂ bytes ih =>
    intro c hc
    simp only [base64Encode, List.mem_cons] at hc
    rcases hc with rfl | rfl | rfl | rfl | hc
    iterate 4 exact .inl (hsextet _)
    exact ih c hc
  | case2 b₀ b₁ =>
    intro c hc
    simp only [base64Encode, List.mem_cons, List.not_mem_nil, or_false] at hc
    rcases hc with rfl | rfl | rfl | rfl
    iterate 3 exact .inl (hsextet _)
    exact .inr rfl
  | case3 b₀ =>
    intro c hc
    simp only [base64Encode, List.mem_cons, List.not_mem_nil, or_false] at hc
    rcases hc with rfl | rfl | rfl | rfl
    iterate 2 exact .inl (hsextet _)
    iterate 2 exact .inr rfl
  | case4 => exact fun c hc => absurd hc List.not_mem_nil

theorem base64Decode_encode (bytes : List UInt8) :
    base64Decode (base64Encode bytes) = some bytes := by
  induction bytes using base64Encode.induct with
  | case1 b₀ b₁ b₂ bytes ih =>
    have h₀ := b₀.toNat_lt
    have h₁ := b₁.toNat_lt
    have h₂ := b₂.toNat_lt
    simp only [base64Encode]
    generalize hn : b₀.toNat * 65536 + b₁.toNat * 256 + b₂.toNat = n
    have hgroup : decodeThree (encodeSextet (n / 262144)) (encodeSextet (n / 4096 % 64))
        (encodeSextet (n / 64 % 64)) (encodeSextet (n % 64)) = some [b₀, b₁, b₂] := by
      simp only [decodeThree, decodeSextet_encode (show n / 262144 < 64 by omega),
        decodeSextet_encode (show n / 4096 % 64 < 64 by omega),
        decodeSextet_encode (show n / 64 % 64 < 64 by omega),
        decodeSextet_encode (show n % 64 < 64 by omega), Option.bind_eq_bind, Option.bind_some]
      rw [ofNat_eq (b := b₀) (by omega), ofNat_eq (b := b₁) (by omega),
        ofNat_eq (b := b₂) (by omega)]
    have hpad : ¬ (encodeSextet (n % 64) = '=' ∧ base64Encode bytes = []) := fun h =>
      encodeSextet_ne_pad (show n % 64 < 64 by omega) h.1
    rw [base64Decode, if_neg hpad, hgroup, ih]
    rfl
  | case2 b₀ b₁ =>
    have h₀ := b₀.toNat_lt
    have h₁ := b₁.toNat_lt
    simp only [base64Encode]
    generalize hn : b₀.toNat * 1024 + b₁.toNat * 4 = n
    rw [base64Decode, if_pos ⟨rfl, rfl⟩,
      if_neg (encodeSextet_ne_pad (show n % 64 < 64 by omega))]
    simp only [decodeTwo, decodeSextet_encode (show n / 4096 < 64 by omega),
      decodeSextet_encode (show n / 64 % 64 < 64 by omega),
      decodeSextet_encode (show n % 64 < 64 by omega), Option.bind_eq_bind, Option.bind_some]
    rw [if_pos (by omega), ofNat_eq (b := b₀) (by omega), ofNat_eq (b := b₁) (by omega)]
  | case3 b₀ =>
    have h₀ := b₀.toNat_lt
    simp only [base64Encode]
    generalize hn : b₀.toNat * 16 = n
    rw [base64Decode, if_pos ⟨rfl, rfl⟩, if_pos rfl]
    simp only [decodeOne, decodeSextet_encode (show n / 64 < 64 by omega),
      decodeSextet_encode (show n % 64 < 64 by omega), Option.bind_eq_bind, Option.bind_some]
    rw [if_pos (by omega), ofNat_eq (b := b₀) (by omega)]
  | case4 => rfl

end Hapcli.Rust
