/-
  Subject:   The string functions of the language's standard library the protocols use, on lists
             of characters and bytes.

  A `String` of the source is a list of scalar values (`Str`), `as_bytes` its UTF-8 encoding.
  `fromUtf8Lossy` decodes any bytes: a maximal ill-formed piece becomes one U+FFFD, as
  `String::from_utf8_lossy` documents; on the bytes of a text it gives the text back
  (`fromUtf8Lossy_asBytes`). `parseU64` reads what `u64::from_str` accepts; on the digits of a
  number that fits it gives the number back (`parseUnsigned_numToString`).
-/
import Mathlib.Algebra.Ring.Nat
import Mathlib.Data.List.DropRight
import Mathlib.Tactic.Common

namespace Hapcli.Rust

/-- A `String` (or `&str`). -/
abbrev Str := List Char

instance : LawfulBEq Str := inferInstance

def asBytes (s : Str) : List UInt8 := s.flatMap String.utf8EncodeChar

@[simp] theorem asBytes_nil : asBytes [] = [] := rfl

@[simp] theorem asBytes_cons (c : Char) (s : Str) :
    asBytes (c :: s) = String.utf8EncodeChar c ++ asBytes s := by
  simp [asBytes]

@[simp] theorem asBytes_append (s t : Str) : asBytes (s ++ t) = asBytes s ++ asBytes t := by
  simp [asBytes]

/-! ## 1. UTF-8 -/

theorem forall_byte {P : UInt8 → Prop} (h : ∀ n : Fin 256, P (UInt8.ofFin n)) (b : UInt8) : P b :=
  h b.toFin

/-- A UTF-8 continuation byte. -/
def isContinuation (b : UInt8) : Bool := 0x80 ≤ b && b ≤ 0xbf

/-- A lead byte of a three-byte sequence with a second byte it admits. -/
def opensThree (b0 b1 : UInt8) : Bool :=
  (b0 == 0xe0 && 0xa0 ≤ b1 && b1 ≤ 0xbf) || (0xe1 ≤ b0 && b0 ≤ 0xec && isContinuation b1) ||
    (b0 == 0xed && 0x80 ≤ b1 && b1 ≤ 0x9f) || (0xee ≤ b0 && b0 ≤ 0xef && isContinuation b1)

/-- A lead byte of a four-byte sequence with a second byte it admits. -/
def opensFour (b0 b1 : UInt8) : Bool :=
  (b0 == 0xf0 && 0x90 ≤ b1 && b1 ≤ 0xbf) || (0xf1 ≤ b0 && b0 ≤ 0xf3 && isContinuation b1) ||
    (b0 == 0xf4 && 0x80 ≤ b1 && b1 ≤ 0x8f)

/-- Length of the maximal ill-formed piece at the front of bytes that start no scalar value. -/
def illFormedLen : List UInt8 → Nat
  | b0 :: b1 :: b2 :: _ =>
    if opensThree b0 b1 then 2
    else if opensFour b0 b1 then (if isContinuation b2 then 3 else 2)
    else 1
  | [b0, b1] => if opensThree b0 b1 || opensFour b0 b1 then 2 else 1
  | _ => 1

/-- The first scalar value of the bytes and the number of bytes it stands for. -/
def decodeFirst (bytes : List UInt8) : Char × Nat :=
  match bytes.toByteArray.utf8DecodeChar? 0 with
  | some c => (c, c.utf8Size)
  | none => ('\uFFFD', illFormedLen bytes)

/-- `String::from_utf8_lossy`; `skip` counts the bytes of the current scalar value still ahead. -/
def fromUtf8LossyAux : Nat → List UInt8 → Str
  | _, [] => []
  | skip + 1, _ :: bytes => fromUtf8LossyAux skip bytes
  | 0, b :: bytes =>
    (decodeFirst (b :: bytes)).1 :: fromUtf8LossyAux ((decodeFirst (b :: bytes)).2 - 1) bytes

/-- `String::from_utf8_lossy`. -/
def fromUtf8Lossy (bytes : List UInt8) : Str := fromUtf8LossyAux 0 bytes

theorem fromUtf8LossyAux_skip (bs rest : List UInt8) :
    fromUtf8LossyAux bs.length (bs ++ rest) = fromUtf8LossyAux 0 rest := by
  induction bs with
  | nil => rfl
  | cons b bs ih => simpa [fromUtf8LossyAux] using ih

theorem decodeFirst_encode (c : Char) (rest : List UInt8) :
    decodeFirst (String.utf8EncodeChar c ++ rest) = (c, c.utf8Size) := by
  unfold decodeFirst
  rw [List.toByteArray_append, ByteArray.utf8DecodeChar?_utf8EncodeChar_append]

theorem fromUtf8Lossy_asBytes (s : Str) : fromUtf8Lossy (asBytes s) = s := by
  unfold fromUtf8Lossy
  induction s with
  | nil => rfl
  | cons c s ih =>
    have hd := decodeFirst_encode c (asBytes s)
    have hlen : (String.utf8EncodeChar c).length = c.utf8Size := String.length_utf8EncodeChar c
    rw [asBytes_cons]
    cases he : String.utf8EncodeChar c with
    | nil =>
      rw [he] at hlen
      exact absurd hlen.symm (Nat.pos_iff_ne_zero.mp c.utf8Size_pos)
    | cons b bs =>
      rw [he] at hd hlen
      rw [List.cons_append, fromUtf8LossyAux, ← List.cons_append, hd, ← hlen]
      simp only [List.length_cons, Nat.add_sub_cancel]
      rw [fromUtf8LossyAux_skip, ih]

/-- The text of a `Utf8Error` at a place that no scalar value starts: the piece is incomplete if
    more bytes could have made it one. -/
def utf8ErrorText (index : Nat) (bytes : List UInt8) : Str :=
  let opens := bytes.length > 1 || bytes.head?.any fun b => 0xc2 ≤ b && b ≤ 0xf4
  if illFormedLen bytes = bytes.length ∧ opens then
    "incomplete utf-8 byte sequence from index ".toList ++ Nat.toDigits 10 index
  else
    "invalid utf-8 sequence of ".toList ++ Nat.toDigits 10 (illFormedLen bytes) ++
      " bytes from index ".toList ++ Nat.toDigits 10 index

/-- `String::from_utf8` from the given index on. -/
@[grind] def fromUtf8Aux : Nat → Nat → List UInt8 → Except Str Str
  | _, _, [] => .ok []
  | index, skip + 1, _ :: bytes => fromUtf8Aux (index + 1) skip bytes
  | index, 0, b :: bytes =>
    match (b :: bytes).toByteArray.utf8DecodeChar? 0 with
    | some c => (fromUtf8Aux (index + 1) (c.utf8Size - 1) bytes).map (c :: ·)
    | none => .error (utf8ErrorText index (b :: bytes))

/-- `String::from_utf8`, its error known by its text. -/
def fromUtf8 (bytes : List UInt8) : Except Str Str := fromUtf8Aux 0 0 bytes

theorem fromUtf8Aux_skip (index : Nat) (bs rest : List UInt8) :
    fromUtf8Aux index bs.length (bs ++ rest) = fromUtf8Aux (index + bs.length) 0 rest := by
  induction bs generalizing index with
  | nil => rfl
  | cons b bs ih =>
    rw [List.length_cons, List.cons_append, fromUtf8Aux, ih]
    congr 1
    omega

theorem fromUtf8Aux_asBytes (index : Nat) (s : Str) (rest : List UInt8) :
    fromUtf8Aux index 0 (asBytes s ++ rest) =
      (fromUtf8Aux (index + (asBytes s).length) 0 rest).map (s ++ ·) := by
  induction s generalizing index with
  | nil => cases h : fromUtf8Aux index 0 rest <;> simp [Except.map, h]
  | cons c s ih =>
    have hd : (String.utf8EncodeChar c ++ (asBytes s ++ rest)).toByteArray.utf8DecodeChar? 0 =
        some c := by
      rw [List.toByteArray_append, ByteArray.utf8DecodeChar?_utf8EncodeChar_append]
    have hlen : (String.utf8EncodeChar c).length = c.utf8Size := String.length_utf8EncodeChar c
    rw [asBytes_cons, List.append_assoc]
    cases he : String.utf8EncodeChar c with
    | nil =>
      rw [he] at hlen
      exact absurd hlen.symm (Nat.pos_iff_ne_zero.mp c.utf8Size_pos)
    | cons b bs =>
      rw [he, List.cons_append] at hd
      rw [he] at hlen
      rw [List.cons_append, fromUtf8Aux, hd]
      simp only [← hlen, List.length_cons, Nat.add_sub_cancel]
      rw [fromUtf8Aux_skip, ih]
      have hindex : index + 1 + bs.length + (asBytes s).length =
          index + (b :: bs ++ asBytes s).length := by
        simp only [List.length_append, List.length_cons]
        omega
      rw [hindex]
      cases fromUtf8Aux (index + (b :: bs ++ asBytes s).length) 0 rest <;> rfl

theorem fromUtf8_asBytes (s : Str) : fromUtf8 (asBytes s) = .ok s := by
  have h := fromUtf8Aux_asBytes 0 s []
  rw [List.append_nil] at h
  rw [fromUtf8, h]
  simp [fromUtf8Aux, Except.map]

variable {c : Char} {n : Nat} {s : Str}

theorem utf8EncodeChar_ascii (h : c.toNat < 0x80) :
    String.utf8EncodeChar c = [UInt8.ofNat c.toNat] := by
  have : c.val.toNat ≤ 127 := by
    have : c.val.toNat = c.toNat := rfl
    omega
  simp only [String.utf8EncodeChar, this, if_true]
  rfl

/-- A byte below 0x80 occurs in the encoding of no character but its own. -/
theorem mem_utf8EncodeChar_ascii {b : UInt8} (hb : b.toNat < 0x80)
    (h : b ∈ String.utf8EncodeChar c) : c.toNat = b.toNat := by
  have hv : c.val.toNat = c.toNat := rfl
  have key : ∀ n m, 128 ≤ m → m < 256 → b = UInt8.ofNat m → n = b.toNat := by
    intro n m h1 h2 hbm
    rw [hbm, UInt8.toNat_ofNat'] at hb
    omega
  unfold String.utf8EncodeChar at h
  simp only [hv] at h
  split at h
  · rename_i hle
    rw [List.mem_singleton.mp h, UInt8.toNat_ofNat']
    omega
  · split at h
    · simp only [List.mem_cons, List.not_mem_nil, or_false] at h
      rcases h with h | h <;> exact key _ _ (by omega) (by omega) h
    · split at h
      · simp only [List.mem_cons, List.not_mem_nil, or_false] at h
        rcases h with h | h | h <;> exact key _ _ (by omega) (by omega) h
      · simp only [List.mem_cons, List.not_mem_nil, or_false] at h
        rcases h with h | h | h | h <;> exact key _ _ (by omega) (by omega) h

theorem mem_asBytes_ascii {b : UInt8} (hb : b.toNat < 0x80) (h : b ∈ asBytes s) :
    ∃ c ∈ s, c.toNat = b.toNat := by
  obtain ⟨c, hc, hm⟩ := List.mem_flatMap.mp h
  exact ⟨c, hc, mem_utf8EncodeChar_ascii hb hm⟩

theorem forall_asBytes_ascii {P : UInt8 → Prop}
    (h : ∀ c ∈ s, c.toNat < 0x80 ∧ P (UInt8.ofNat c.toNat)) : ∀ b ∈ asBytes s, P b := by
  intro b hb
  obtain ⟨c, hc, hm⟩ := List.mem_flatMap.mp hb
  obtain ⟨hlt, hP⟩ := h c hc
  rw [utf8EncodeChar_ascii hlt, List.mem_singleton] at hm
  exact hm ▸ hP

theorem zero_not_mem_asBytes (h : '\x00' ∉ s) : (0 : UInt8) ∉ asBytes s := by
  intro h0
  obtain ⟨c, hc, hn⟩ := mem_asBytes_ascii (by decide) h0
  have : c = '\x00' := Char.toNat_inj.mp hn
  exact h (this ▸ hc)

theorem asBytes_ne_nil (h : s ≠ []) : asBytes s ≠ [] := by
  cases s with
  | nil => exact absurd rfl h
  | cons c s =>
    intro h0
    have hlen := congrArg List.length h0
    simp only [asBytes_cons, List.length_append, String.length_utf8EncodeChar,
      List.length_nil] at hlen
    have := c.utf8Size_pos
    omega

/-- The first symbol that satisfies `p`, when none before it does. -/
theorem findIdx?_first {α : Type} {p : α → Bool} {l r : List α} {a : α} (hl : ∀ x ∈ l, p x = false)
    (ha : p a = true) : (l ++ a :: r).findIdx? p = some l.length := by
  rw [List.findIdx?_append, List.findIdx?_eq_none_iff.mpr hl, List.findIdx?_cons, ha]
  simp

/-! ## 2. White space, lines, numbers -/

/-- `char::is_whitespace`: the Unicode property White_Space. -/
def isWhitespace (c : Char) : Bool :=
  let n := c.toNat
  (9 ≤ n && n ≤ 13) || n == 0x20 || n == 0x85 || n == 0xa0 || n == 0x1680 ||
    (0x2000 ≤ n && n ≤ 0x200a) || n == 0x2028 || n == 0x2029 || n == 0x202f || n == 0x205f ||
    n == 0x3000

def splitWhitespace (s : Str) : List Str := (s.splitOnP isWhitespace).filter (· ≠ [])

/-- `u64::MAX`. -/
def u64Max : Nat := 2 ^ 64 - 1

/-- `to_string` of an unsigned number. -/
def numToString (n : Nat) : Str := Nat.toDigits 10 n

/-- The digits of `str::parse` for an unsigned type with the given largest value. -/
def parseDigits (max : Nat) (s : Str) : Option Nat :=
  if s ≠ [] ∧ s.all Char.isDigit ∧ Nat.ofDigitChars 10 s 0 ≤ max then some (Nat.ofDigitChars 10 s 0)
  else none

/-- `str::parse` for an unsigned type: decimal digits after an optional `+`. -/
def parseUnsigned (max : Nat) : Str → Option Nat
  | '+' :: s => parseDigits max s
  | s => parseDigits max s

/-- `str::parse::<u64>`. -/
def parseU64 (s : Str) : Option Nat := parseUnsigned u64Max s

theorem isDigit_of_mem_numToString (h : c ∈ numToString n) : c.isDigit :=
  Nat.isDigit_of_mem_toDigits (by omega) (by omega) h

theorem isDigit_toNat (h : c.isDigit = true) : 48 ≤ c.toNat ∧ c.toNat ≤ 57 := by
  simp only [Char.isDigit, Bool.and_eq_true, decide_eq_true_eq, ge_iff_le, UInt32.le_iff_toNat_le]
    at h
  exact h

theorem not_whitespace_of_isDigit (h : c.isDigit = true) : isWhitespace c = false := by
  obtain ⟨h1, h2⟩ := isDigit_toNat h
  simp only [isWhitespace, Bool.or_eq_false_iff, Bool.and_eq_false_iff, beq_eq_false_iff_ne,
    decide_eq_false_iff_not]
  omega

theorem numToString_ne_nil (n : Nat) : numToString n ≠ [] := Nat.toDigits_ne_nil

theorem parseUnsigned_numToString {max : Nat} (h : n ≤ max) :
    parseUnsigned max (numToString n) = some n := by
  have hd : parseDigits max (numToString n) = some n := by
    unfold parseDigits
    have hall : (numToString n).all Char.isDigit = true :=
      List.all_eq_true.mpr fun c hc => isDigit_of_mem_numToString hc
    rw [show Nat.ofDigitChars 10 (numToString n) 0 = n from Nat.ofDigitChars_ten_toDigits]
    simp [numToString_ne_nil, hall, h]
  unfold parseUnsigned
  split
  · rename_i s hs
    have : '+' ∈ numToString n := by rw [hs]; exact List.mem_cons_self
    exact absurd (isDigit_of_mem_numToString this) (by decide)
  · exact hd

theorem numToString_inj {m : Nat} (h : numToString m = numToString n) : m = n := by
  have hm : parseUnsigned (max m n) (numToString m) = some m :=
    parseUnsigned_numToString (Nat.le_max_left m n)
  rw [h, parseUnsigned_numToString (Nat.le_max_right m n)] at hm
  exact (Option.some.inj hm).symm

/-- Two texts that end in a separator and a part without it agree in both pieces. -/
theorem append_cons_inj {α : Type} {x : α} {front front' back back' : List α} (h : x ∉ back)
    (h' : x ∉ back') (heq : front ++ x :: back = front' ++ x :: back') :
    front = front' ∧ back = back' := by
  rcases List.append_eq_append_iff.mp heq with ⟨between, hfront, hback⟩ | ⟨between, hfront, hback⟩
  · cases between with
    | nil => exact ⟨by simpa using hfront.symm, (List.cons.inj hback).2⟩
    | cons y between =>
      refine absurd ?_ h
      rw [(List.cons.inj hback).2]
      simp
  · cases between with
    | nil => exact ⟨by simpa using hfront, (List.cons.inj hback).2.symm⟩
    | cons y between =>
      refine absurd ?_ h'
      rw [(List.cons.inj hback).2]
      simp

theorem splitWhitespace_numToString (n : Nat) :
    splitWhitespace (numToString n) = [numToString n] := by
  unfold splitWhitespace
  rw [List.splitOnP_eq_singleton fun c hc =>
    not_whitespace_of_isDigit (isDigit_of_mem_numToString hc)]
  simp [numToString_ne_nil]

/-- The first complaint of `str::parse` while it reads digits into a number not above `max`. -/
def digitsErrorText (max : Nat) : Nat → Str → Str
  | _, [] => []
  | value, c :: s =>
    if ¬ c.isDigit then "invalid digit found in string".toList
    else if value * 10 + (c.toNat - 48) > max then
      "number too large to fit in target type".toList
    else digitsErrorText max (value * 10 + (c.toNat - 48)) s

/-- The text of the `ParseIntError` of `str::parse` for an unsigned type, where it fails. -/
def parseErrorText (max : Nat) : Str → Str
  | [] => "cannot parse integer from empty string".toList
  | ['+'] => "invalid digit found in string".toList
  | '+' :: s => digitsErrorText max 0 s
  | s => digitsErrorText max 0 s

/-- A line without the carriage return before its line feed. -/
def stripCarriageReturn (line : Str) : Str :=
  if line.getLast? = some '\r' then line.dropLast else line

/-- `str::lines`: the pieces between line feeds, a carriage return before a line feed not counted;
    the last piece is a line only if it is not empty, and keeps its carriage return. -/
def lines (s : Str) : List Str :=
  let pieces := s.splitOnP (· == '\n')
  let last := pieces.getLastD []
  pieces.dropLast.map stripCarriageReturn ++ if last = [] then [] else [last]

def trimMatches (p : Char → Bool) (s : Str) : Str :=
  ((s.dropWhile p).reverse.dropWhile p).reverse

def trim (s : Str) : Str := trimMatches isWhitespace s

theorem trim_of_ends (hfirst : s.dropWhile isWhitespace = s)
    (hlast : s.reverse.dropWhile isWhitespace = s.reverse) : trim s = s := by
  rw [trim, trimMatches, hfirst, hlast, List.reverse_reverse]

theorem trim_trim (s : Str) : trim (trim s) = trim s := by
  refine trim_of_ends ?_ ?_
  · obtain ⟨rest, hrest⟩ : trim s <+: s.dropWhile isWhitespace := by
      rw [← List.reverse_suffix, trim, trimMatches, List.reverse_reverse]
      exact List.dropWhile_suffix _
    cases htrim : trim s with
    | nil => rfl
    | cons c t =>
      rw [htrim] at hrest
      have hc := List.head?_dropWhile_not isWhitespace s
      rw [← hrest] at hc
      exact List.dropWhile_cons_of_neg (by simp at hc; simp [hc])
  · rw [trim, trimMatches, List.reverse_reverse]
    exact List.dropWhile_idempotent _ _

theorem trim_of_no_whitespace (h : ∀ c ∈ s, isWhitespace c = false) : trim s = s := by
  have hkept : ∀ t : Str, (∀ c ∈ t, isWhitespace c = false) → t.dropWhile isWhitespace = t := by
    intro t ht
    cases t with
    | nil => rfl
    | cons c t => exact List.dropWhile_cons_of_neg (by simp [ht c List.mem_cons_self])
  exact trim_of_ends (hkept s h) (hkept _ fun c hc => h c (List.mem_reverse.mp hc))

/-- `rsplit(..).next()`: what stands behind the last separator. -/
def lastPiece (isSeparator : Char → Bool) (s : Str) : Str := (s.splitOnP isSeparator).getLastD []

/-- `str::find` of a text: the first place where it stands. -/
def findStr (s pattern : Str) : Option Nat :=
  (List.range (s.length + 1)).find? fun index => pattern.isPrefixOf (s.drop index)

/-- `str::rfind` of a text: the last place where it stands. -/
def rfindStr (s pattern : Str) : Option Nat :=
  (List.range (s.length + 1)).reverse.find? fun index => pattern.isPrefixOf (s.drop index)

/-- `str::split_once`. -/
def splitOnce (s pattern : Str) : Option (Str × Str) :=
  (findStr s pattern).map fun index => (s.take index, s.drop (index + pattern.length))

theorem findStr_none {pattern : Str} (hs : c ∉ s) : findStr s (c :: pattern) = none := by
  rw [findStr, List.find?_eq_none]
  intro index _ hfound
  have hpre := List.isPrefixOf_iff_prefix.mp hfound
  exact hs (List.mem_of_mem_drop (hpre.subset List.mem_cons_self))

theorem splitOnce_front {front back : Str} (h : c ∉ front) :
    splitOnce (front ++ c :: back) [c] = some (front, back) := by
  have hfound : findStr (front ++ c :: back) [c] = some front.length := by
    rw [findStr, List.find?_range_eq_some]
    refine ⟨by simp, List.mem_range.mpr (by rw [List.length_append]; omega),
      fun index hindex => ?_⟩
    have hdrop : (front ++ c :: back).drop index =
        front[index] :: (front ++ c :: back).drop (index + 1) := by
      rw [List.drop_eq_getElem_cons (by simp; omega), List.getElem_append_left hindex]
    have hne : c ≠ front[index] := fun heq => h (heq ▸ List.getElem_mem hindex)
    simp [hdrop, List.isPrefixOf, hne]
  simp [splitOnce, hfound]

/-- A text that stands at the front, and whose first character stands nowhere else, is found
    there. -/
theorem rfindStr_front {pattern rest : Str} (hs : s = c :: rest) (hc : c ∉ rest)
    (hpattern : c :: pattern <+: s) : rfindStr s (c :: pattern) = some 0 := by
  subst hs
  have hlater : ∀ index ∈ (List.range (c :: rest).length).map (· + 1),
      ¬ (c :: pattern).isPrefixOf ((c :: rest).drop index) = true := by
    intro index hi hfound
    obtain ⟨n, -, rfl⟩ := List.mem_map.mp hi
    have hpre := List.isPrefixOf_iff_prefix.mp hfound
    exact hc (List.mem_of_mem_drop (hpre.subset List.mem_cons_self))
  rw [rfindStr, List.range_succ_eq_map, List.reverse_cons, List.find?_append,
    List.find?_eq_none.mpr fun index hi => hlater index (List.mem_reverse.mp hi)]
  simpa using List.isPrefixOf_iff_prefix.mpr hpattern

/-! ## 3. Paths -/

/-- `Path::is_absolute` on Unix. -/
def isAbsolutePath (s : Str) : Bool := s.head? == some '/'

/-- `Path::file_name` on Unix: the last component, where empty components and `.` do not count and
    `..` is no name. -/
def pathFileName (s : Str) : Option Str :=
  match ((s.splitOnP (· == '/')).filter fun c => c ≠ [] ∧ c ≠ ['.']).getLast? with
  | some c => if c = ['.', '.'] then none else some c
  | none => none

theorem pathFileName_plain (h : '/' ∉ s) (hne : s ≠ []) (hdot : s ≠ ['.'])
    (hdots : s ≠ ['.', '.']) : pathFileName s = some s := by
  have hsplit : s.splitOnP (· == '/') = [s] :=
    List.splitOnP_eq_singleton fun c hc => beq_eq_false_iff_ne.mpr fun hs => h (hs ▸ hc)
  simp [pathFileName, hsplit, hne, hdot, hdots]

end Hapcli.Rust
