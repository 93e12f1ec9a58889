/-
  Subject:   `String::from_utf8_lossy` of bytes that come in chunks.

  A byte that is no continuation byte starts a character; each character of a decoded chunk is due to
  one such byte at most.

  * `startCount` -- how many bytes start a character; **`startCount_asBytes`** -- one for each;
  * **`startCount_le_length`** -- a decoded chunk has at least that many characters, and one more where
    it starts inside a character;
  * **`lossy_chunks_iff`** -- chunks of a text are decoded to the text just if they are cut between
    its characters.
-/
import Hapcli.Rust.Text

namespace Hapcli.Rust

/-! ## 1. Characters and the bytes that start them -/

/-- How many bytes start a character. -/
def startCount (bytes : List UInt8) : Nat := bytes.countP fun b => !isContinuation b

/-- The bytes do not start inside a character. -/
def StartsCharacter (bytes : List UInt8) : Prop :=
  ∀ b ∈ bytes.head?, isContinuation b = false

instance (bytes : List UInt8) : Decidable (StartsCharacter bytes) :=
  inferInstanceAs (Decidable (∀ b ∈ bytes.head?, isContinuation b = false))

theorem startCount_append (front back : List UInt8) :
    startCount (front ++ back) = startCount front + startCount back :=
  List.countP_append

theorem isContinuation_ofNat {n : Nat} (h : n < 256) :
    isContinuation (UInt8.ofNat n) = decide (128 ≤ n ∧ n ≤ 191) := by
  have hn : (UInt8.ofNat n).toNat = n := by rw [UInt8.toNat_ofNat', Nat.mod_eq_of_lt h]
  unfold isContinuation
  rw [Bool.eq_iff_iff]
  simp only [Bool.and_eq_true, decide_eq_true_eq, UInt8.le_iff_toNat_le, hn]
  exact Iff.rfl

theorem utf8EncodeChar_parts (c : Char) :
    ∃ b bs, String.utf8EncodeChar c = b :: bs ∧ isContinuation b = false ∧
      ∀ x ∈ bs, isContinuation x = true := by
  have hcontinuation : ∀ n, isContinuation (UInt8.ofNat (n % 64 + 128)) = true := by
    intro n
    rw [isContinuation_ofNat (by omega), decide_eq_true_eq]
    omega
  have hlead : ∀ n, n < 256 → 192 ≤ n → isContinuation (UInt8.ofNat n) = false := by
    intro n hn hle
    rw [isContinuation_ofNat hn, decide_eq_false_iff_not]
    omega
  have hascii : ∀ n, n ≤ 127 → isContinuation (UInt8.ofNat n) = false := by
    intro n hn
    rw [isContinuation_ofNat (by omega), decide_eq_false_iff_not]
    omega
  unfold String.utf8EncodeChar
  dsimp only
  split
  · next h => exact ⟨_, _, rfl, hascii _ h, fun x hx => absurd hx List.not_mem_nil⟩
  · split
    · refine ⟨_, _, rfl, hlead _ (by omega) (by omega), fun x hx => ?_⟩
      rw [List.mem_singleton.mp hx]
      exact hcontinuation _
    · split
      · refine ⟨_, _, rfl, hlead _ (by omega) (by omega), fun x hx => ?_⟩
        simp only [List.mem_cons, List.not_mem_nil, or_false] at hx
        rcases hx with rfl | rfl <;> exact hcontinuation _
      · refine ⟨_, _, rfl, hlead _ (by omega) (by omega), fun x hx => ?_⟩
        simp only [List.mem_cons, List.not_mem_nil, or_false] at hx
        rcases hx with rfl | rfl | rfl <;> exact hcontinuation _

theorem startCount_continuations {bs : List UInt8} (h : ∀ x ∈ bs, isContinuation x = true) :
    startCount bs = 0 := by
  refine List.countP_eq_zero.mpr fun x hx => ?_
  rw [h x hx]
  decide

theorem startCount_asBytes (s : Str) : startCount (asBytes s) = s.length := by
  induction s with
  | nil => rfl
  | cons c s ih =>
    obtain ⟨b, bs, hc, hb, hbs⟩ := utf8EncodeChar_parts c
    rw [asBytes_cons, startCount_append, ih, hc, List.length_cons]
    have hone : startCount (b :: bs) = 1 := by
      show List.countP _ (b :: bs) = 1
      rw [List.countP_cons_of_pos (by rw [hb]; rfl)]
      exact congrArg (· + 1) (startCount_continuations hbs)
    omega

/-! ## 2. What is decoded of a chunk -/

theorem decodeFirst_rest (b : UInt8) (bs : List UInt8) :
    ∀ x ∈ bs.take ((decodeFirst (b :: bs)).2 - 1), isContinuation x = true := by
  have hthree : ∀ b0 b1, opensThree b0 b1 = true → isContinuation b1 = true := by
    intro b0 b1 h
    simp only [opensThree, isContinuation, Bool.or_eq_true, Bool.and_eq_true, decide_eq_true_eq,
      UInt8.le_iff_toNat_le] at h ⊢
    simp only [UInt8.toNat_ofNat] at h ⊢
    omega
  have hfour : ∀ b0 b1, opensFour b0 b1 = true → isContinuation b1 = true := by
    intro b0 b1 h
    simp only [opensFour, isContinuation, Bool.or_eq_true, Bool.and_eq_true, decide_eq_true_eq,
      UInt8.le_iff_toNat_le] at h ⊢
    simp only [UInt8.toNat_ofNat] at h ⊢
    omega
  cases hdecode : (b :: bs).toByteArray.utf8DecodeChar? 0 with
  | some c =>
    obtain ⟨rest, hrest⟩ := ByteArray.exists_of_utf8DecodeChar?_eq_some hdecode
    have hbytes : b :: bs = String.utf8EncodeChar c ++ rest.data.toList := by
      have hlist := congrArg (fun bytes => bytes.data.toList) hrest
      simpa using hlist
    have hlength : (decodeFirst (b :: bs)).2 = (String.utf8EncodeChar c).length := by
      rw [String.length_utf8EncodeChar]
      unfold decodeFirst
      rw [hdecode]
    obtain ⟨first, others, hc, -, hothers⟩ := utf8EncodeChar_parts c
    rw [hc, List.cons_append] at hbytes
    obtain ⟨-, rfl⟩ := List.cons.inj hbytes
    rw [hlength, hc, List.length_cons, Nat.add_sub_cancel, List.take_left]
    exact hothers
  | none =>
    have hlength : (decodeFirst (b :: bs)).2 = illFormedLen (b :: bs) := by
      unfold decodeFirst
      rw [hdecode]
    rw [hlength]
    match bs with
    | [] => exact fun x hx => absurd hx List.not_mem_nil
    | [b1] =>
      simp only [illFormedLen]
      split
      · next h =>
          intro x hx
          obtain rfl := List.mem_singleton.mp hx
          rcases Bool.or_eq_true_iff.mp h with h | h
          · exact hthree b x h
          · exact hfour b x h
      · exact fun x hx => absurd hx List.not_mem_nil
    | b1 :: b2 :: rest =>
      simp only [illFormedLen]
      split
      · next h =>
          intro x hx
          obtain rfl := List.mem_singleton.mp hx
          exact hthree b x h
      · split
        · next h =>
            split
            · next h2 =>
                intro x hx
                simp only [Nat.add_one_sub_one, List.take_succ_cons, List.take_zero,
                  List.mem_cons, List.not_mem_nil, or_false] at hx
                rcases hx with rfl | rfl
                · exact hfour b x h
                · exact h2
            · intro x hx
              obtain rfl := List.mem_singleton.mp hx
              exact hfour b x h
        · exact fun x hx => absurd hx List.not_mem_nil

theorem startCount_le_aux (skip : Nat) (bytes : List UInt8)
    (h : ∀ x ∈ bytes.take skip, isContinuation x = true) :
    startCount bytes ≤ (fromUtf8LossyAux skip bytes).length := by
  induction bytes generalizing skip with
  | nil => exact Nat.zero_le _
  | cons b bytes ih =>
    cases skip with
    | succ skip =>
      have hb : isContinuation b = true := h b List.mem_cons_self
      have hstart : startCount (b :: bytes) = startCount bytes := by
        show List.countP _ (b :: bytes) = _
        rw [List.countP_cons_of_neg (by rw [hb]; decide)]
        rfl
      rw [hstart, fromUtf8LossyAux]
      exact ih skip fun x hx => h x (List.mem_cons_of_mem _ hx)
    | zero =>
      have hrest := ih _ (decodeFirst_rest b bytes)
      have hstart : startCount (b :: bytes) ≤ startCount bytes + 1 := by
        show List.countP _ (b :: bytes) ≤ _
        rw [List.countP_cons]
        split <;> simp only [startCount] <;> omega
      rw [fromUtf8LossyAux, List.length_cons]
      omega

theorem startCount_le_length (bytes : List UInt8) :
    startCount bytes + (if StartsCharacter bytes then 0 else 1) ≤ (fromUtf8Lossy bytes).length := by
  split
  · exact startCount_le_aux 0 bytes fun x hx => absurd hx List.not_mem_nil
  · next h =>
      cases bytes with
      | nil => exact absurd (fun b hb => absurd hb (Option.not_mem_none b)) h
      | cons b bytes =>
        have hb : isContinuation b = true := by
          cases hcontinuation : isContinuation b with
          | true => rfl
          | false =>
            refine absurd (fun x hx => ?_) h
            obtain rfl := Option.some.inj hx
            exact hcontinuation
        have hstart : startCount (b :: bytes) = startCount bytes := by
          show List.countP _ (b :: bytes) = _
          rw [List.countP_cons_of_neg (by rw [hb]; decide)]
          rfl
        have hrest := startCount_le_aux _ bytes (decodeFirst_rest b bytes)
        show startCount (b :: bytes) + 1 ≤ (fromUtf8LossyAux 0 (b :: bytes)).length
        rw [hstart, fromUtf8LossyAux, List.length_cons]
        omega

/-! ## 3. Chunks of a text -/

theorem asBytes_split {s : Str} {front back : List UInt8} (h : asBytes s = front ++ back)
    (hback : StartsCharacter back) : ∃ t u, s = t ++ u ∧ front = asBytes t ∧ back = asBytes u := by
  induction s generalizing front with
  | nil =>
    obtain ⟨rfl, rfl⟩ := List.append_eq_nil_iff.mp h.symm
    exact ⟨[], [], rfl, rfl, rfl⟩
  | cons c s ih =>
    rw [asBytes_cons] at h
    rcases List.append_eq_append_iff.mp h with ⟨rest, rfl, hrest⟩ | ⟨rest, hc, hback'⟩
    · obtain ⟨t, u, rfl, rfl, rfl⟩ := ih hrest
      exact ⟨c :: t, u, rfl, (asBytes_cons c t).symm, rfl⟩
    · obtain ⟨b, bs, hparts, -, hbs⟩ := utf8EncodeChar_parts c
      cases front with
      | nil =>
        refine ⟨[], c :: s, rfl, rfl, ?_⟩
        rw [asBytes_cons, hback', hc, List.nil_append]
      | cons first front =>
        cases rest with
        | nil =>
          refine ⟨[c], s, rfl, ?_, hback'⟩
          rw [asBytes_cons, asBytes_nil, hc, List.append_nil, List.append_nil]
        | cons next rest =>
          -- the back would start with a byte inside `c`
          rw [hparts, List.cons_append] at hc
          have hnext : next ∈ bs := by
            rw [(List.cons.inj hc).2]
            exact List.mem_append_right _ List.mem_cons_self
          have hno := hback next (by rw [hback']; rfl)
          rw [hbs next hnext] at hno
          cases hno

theorem startCount_flatten (chunks : List (List UInt8)) :
    startCount chunks.flatten = (chunks.map startCount).sum := by
  induction chunks with
  | nil => rfl
  | cons chunk chunks ih =>
    rw [List.flatten_cons, startCount_append, ih, List.map_cons, List.sum_cons]

theorem sum_startCount_le (chunks : List (List UInt8)) :
    (chunks.map startCount).sum ≤ ((chunks.map fromUtf8Lossy).flatten).length := by
  induction chunks with
  | nil => exact Nat.zero_le _
  | cons chunk chunks ih =>
    have hchunk := startCount_le_length chunk
    simp only [List.map_cons, List.sum_cons, List.flatten_cons, List.length_append]
    omega

theorem startsCharacter_flatten {chunks : List (List UInt8)}
    (h : ∀ chunk ∈ chunks, StartsCharacter chunk) : StartsCharacter chunks.flatten := by
  induction chunks with
  | nil => exact fun b hb => absurd hb (Option.not_mem_none b)
  | cons chunk chunks ih =>
    cases chunk with
    | nil => exact ih fun other hother => h other (List.mem_cons_of_mem _ hother)
    | cons b chunk => exact h (b :: chunk) List.mem_cons_self

/-- Chunks of a text are decoded to it just if they are cut between its characters. -/
theorem lossy_chunks_iff {s : Str} {chunks : List (List UInt8)} (h : chunks.flatten = asBytes s) :
    (chunks.map fromUtf8Lossy).flatten = s ↔ ∀ chunk ∈ chunks, StartsCharacter chunk := by
  constructor
  · intro htext chunk hchunk
    by_contra hno
    -- one chunk has a character too many
    have hleast : (chunks.map startCount).sum + 1 ≤ ((chunks.map fromUtf8Lossy).flatten).length := by
      obtain ⟨before, after, rfl⟩ := List.append_of_mem hchunk
      have hbefore := sum_startCount_le before
      have hafter := sum_startCount_le after
      have hone := startCount_le_length chunk
      rw [if_neg hno] at hone
      simp only [List.map_append, List.map_cons, List.sum_append, List.sum_cons, List.flatten_append,
        List.flatten_cons, List.length_append]
      omega
    rw [htext, ← startCount_flatten, h, startCount_asBytes] at hleast
    omega
  · intro hstarts
    induction chunks generalizing s with
    | nil =>
      cases s with
      | nil => rfl
      | cons c s => exact absurd h.symm (asBytes_ne_nil (List.cons_ne_nil c s))
    | cons chunk chunks ih =>
      have hafter : ∀ other ∈ chunks, StartsCharacter other :=
        fun other hother => hstarts other (List.mem_cons_of_mem _ hother)
      obtain ⟨t, u, rfl, rfl, hu⟩ :=
        asBytes_split (h.symm.trans List.flatten_cons) (startsCharacter_flatten hafter)
      rw [List.map_cons, List.flatten_cons, fromUtf8Lossy_asBytes, ih hu hafter]

end Hapcli.Rust
