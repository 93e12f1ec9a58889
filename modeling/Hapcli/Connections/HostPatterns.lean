/-
  Subject:   The host patterns of an SSH config: `host_patterns_match` and `wildcard_match`
             (`ssh_config.rs`).

  An index into the pattern or the value is what is left of it from there on.

  * `matchLoop_iff` -- **the last star is enough** where the value has none;
  * **`host_patterns_iff`** -- the patterns match as globs exactly if the alias has no `*`.
-/
import Hapcli.Rust.Text
import Mathlib.Data.List.Infix

namespace Hapcli.Connections

open Hapcli.Rust

/-! ## 1. Matching -/

/-- The loop of `wildcard_match`, with what is left of the pattern behind the last star and of the
    value from where this star takes bytes. -/
@[grind] def matchLoop (pattern value : List UInt8) (star : Option (List UInt8 × List UInt8))
    (hstar : ∀ s ∈ star, value.length ≤ s.2.length) : Bool :=
  match value with
  | [] => pattern.all (· = 0x2a)
  | byte :: rest =>
    if hsame : pattern.head? = some 0x3f ∨ pattern.head? = some byte then
      matchLoop pattern.tail rest star fun s hs => Nat.le_of_lt (hstar s hs)
    else if hhead : pattern.head? = some 0x2a then
      matchLoop pattern.tail (byte :: rest) (some (pattern.tail, byte :: rest)) fun _ hs => by
        cases hs
        exact Nat.le_refl _
    else
      match star with
      | none => false
      | some (after, taken) => matchLoop after taken.tail (some (after, taken.tail)) fun _ hs => by
          cases hs
          exact Nat.le_refl _
termination_by
  (if value = [] then 0 else (star.map (·.2.length)).getD (value.length + 1), pattern.length)
decreasing_by
  · have hpattern : pattern.tail.length < pattern.length := by
      cases pattern with
      | nil => simp at hsame
      | cons => exact Nat.lt_succ_self _
    by_cases hrest : rest = []
    · refine .left _ _ ?_
      cases star with
      | none => simp [hrest]
      | some s => simpa [hrest] using Nat.lt_of_lt_of_le (Nat.succ_pos _) (hstar s rfl)
    · cases star with
      | none => exact .left _ _ (by simp [hrest])
      | some s => simpa [hrest] using Prod.Lex.right _ hpattern
  · have hpattern : pattern.tail.length < pattern.length := by
      cases pattern with
      | nil => simp at hhead
      | cons => exact Nat.lt_succ_self _
    cases star with
    | none => exact .left _ _ (by simp)
    | some s =>
      rcases Nat.lt_or_eq_of_le (hstar s rfl) with hlt | heq
      · exact .left _ _ (by simpa using hlt)
      · simpa [← heq] using Prod.Lex.right _ hpattern
  · have hle : rest.length + 1 ≤ taken.length := hstar _ rfl
    refine .left _ _ ?_
    cases taken with
    | nil => cases hle
    | cons first taken =>
      by_cases htaken : taken = []
      · simp [htaken]
      · simp [htaken]

/-- `to_ascii_lowercase().into_bytes()`. -/
def lowerBytes (s : Str) : List UInt8 := asBytes (s.map Char.toLower)

def wildcardMatch (pattern value : Str) : Bool :=
  matchLoop (lowerBytes pattern) (lowerBytes value) none nofun

/-- `strip_prefix('!')`: whether the pattern is negated, and the pattern. -/
def stripNegation : Str → Bool × Str
  | '!' :: pattern => (true, pattern)
  | pattern => (false, pattern)

/-- The loop of `host_patterns_match`. -/
def patternsLoop (host : Str) : Bool → List Str → Bool
  | positiveMatch, [] => positiveMatch
  | positiveMatch, pattern :: patterns =>
    if wildcardMatch (stripNegation pattern).2 host then
      if (stripNegation pattern).1 then false else patternsLoop host true patterns
    else patternsLoop host positiveMatch patterns

def hostPatternsMatch (patterns : List Str) (host : Str) : Bool := patternsLoop host false patterns

/-! ## 2. Globs -/

/-- **The glob relation**: `*` is any bytes, `?` one byte. -/
@[grind] def Glob : List UInt8 → List UInt8 → Prop
  | [], value => value = []
  | byte :: pattern, value =>
    if byte = 0x2a then ∃ back, back <:+ value ∧ Glob pattern back
    else ∃ first rest, value = first :: rest ∧ (byte = 0x3f ∨ byte = first) ∧ Glob pattern rest

variable {pattern value : List UInt8}

theorem glob_star : Glob (0x2a :: pattern) value ↔ ∃ back, back <:+ value ∧ Glob pattern back := by
  rw [Glob, if_pos rfl]

theorem glob_cons {byte : UInt8} (h : byte ≠ 0x2a) : Glob (byte :: pattern) value ↔
    ∃ first rest, value = first :: rest ∧ (byte = 0x3f ∨ byte = first) ∧ Glob pattern rest := by
  rw [Glob, if_neg h]

theorem glob_nil : Glob pattern [] ↔ pattern.all (· = 0x2a) = true := by
  induction pattern with
  | nil => simp [Glob]
  | cons byte pattern ih =>
    by_cases hbyte : byte = 0x2a
    · subst hbyte
      simp [glob_star, ih]
    · simp [glob_cons hbyte, hbyte]

theorem Glob.append_left (h : Glob pattern value) (front : List UInt8) :
    Glob (front ++ pattern) (front ++ value) := by
  induction front with
  | nil => exact h
  | cons byte front ih =>
    by_cases hbyte : byte = 0x2a
    · subst hbyte
      exact (glob_star).mpr ⟨_, List.suffix_cons _ _, ih⟩
    · exact (glob_cons hbyte).mpr ⟨byte, _, rfl, .inr rfl, ih⟩

/-- Bytes without a star take as many bytes of the value. -/
theorem Glob.of_append {front : List UInt8} (h : Glob (front ++ pattern) value)
    (hfront : (0x2a : UInt8) ∉ front) :
    ∃ taken rest, value = taken ++ rest ∧ taken.length = front.length ∧ Glob pattern rest := by
  induction front generalizing value with
  | nil => exact ⟨[], value, rfl, rfl, h⟩
  | cons byte front ih =>
    rw [List.mem_cons, not_or] at hfront
    obtain ⟨first, rest, rfl, -, hrest⟩ := (glob_cons (Ne.symm hfront.1)).mp h
    obtain ⟨taken, rest, rfl, hlength, hglob⟩ := ih hrest hfront.2
    exact ⟨first :: taken, rest, rfl, congrArg (· + 1) hlength, hglob⟩

/-- What the loop has found out: the pattern behind the last star took what the value is short of,
    byte by byte. -/
def Tracked (pattern value : List UInt8) (star : Option (List UInt8 × List UInt8)) : Prop :=
  (0x2a : UInt8) ∉ value ∧ ∀ s ∈ star, (0x2a : UInt8) ∉ s.2 ∧ ∃ passed front,
    s.1 = passed ++ pattern ∧ (0x2a : UInt8) ∉ passed ∧ s.2 = front ++ value ∧
      front.length = passed.length

/-- The last star succeeds if it takes more. -/
def Retries (star : Option (List UInt8 × List UInt8)) : Prop :=
  ∃ s ∈ star, ∃ back, back <:+ s.2 ∧ back.length < s.2.length ∧ Glob s.1 back

variable {star : Option (List UInt8 × List UInt8)} {byte : UInt8} {rest : List UInt8}

/-- If the star takes more, the rest of the pattern has less of the value. -/
theorem Tracked.of_retries (h : Tracked pattern value star) (hretries : Retries star) :
    ∃ rest, rest <:+ value ∧ rest.length < value.length ∧ Glob pattern rest := by
  obtain ⟨s, hs, back, hback, hshort, hglob⟩ := hretries
  obtain ⟨-, passed, front, hafter, hpassed, hvalue, hlength⟩ := h.2 s hs
  rw [hafter] at hglob
  obtain ⟨taken, rest, rfl, htaken, hrest⟩ := hglob.of_append hpassed
  have hsuffix : rest <:+ front ++ value := hvalue ▸ (List.suffix_append taken rest).trans hback
  rw [hvalue, List.length_append, List.length_append] at hshort
  have hlt : rest.length < value.length := by omega
  exact ⟨rest, List.suffix_of_suffix_length_le hsuffix (List.suffix_append ..) hlt.le, hlt, hrest⟩

theorem retries_iff {after : List UInt8} : Retries (some (after, byte :: rest)) ↔
    Glob after rest ∨ Retries (some (after, rest)) := by
  simp only [Retries, Option.mem_some_iff, exists_eq_left', List.length_cons]
  constructor
  · rintro ⟨back, hback, hshort, hglob⟩
    rcases List.suffix_cons_iff.mp hback with rfl | hback
    · exact absurd hshort (Nat.lt_irrefl _)
    · rcases Nat.lt_or_eq_of_le hback.length_le with hlt | heq
      · exact .inr ⟨back, hback, hlt, hglob⟩
      · exact .inl (hback.eq_of_length heq ▸ hglob)
  · rintro (hglob | ⟨back, hback, hshort, hglob⟩)
    · exact ⟨rest, List.suffix_cons _ _, Nat.lt_succ_self _, hglob⟩
    · exact ⟨back, hback.trans (List.suffix_cons _ _), Nat.lt_succ_of_lt hshort, hglob⟩

theorem glob_star_iff : Glob (0x2a :: pattern) (byte :: rest) ↔
    Glob pattern (byte :: rest) ∨ Retries (some (pattern, byte :: rest)) := by
  simp only [glob_star, Retries, Option.mem_some_iff, exists_eq_left']
  constructor
  · rintro ⟨back, hback, hglob⟩
    rcases Nat.lt_or_eq_of_le hback.length_le with hlt | heq
    · exact .inr ⟨back, hback, hlt, hglob⟩
    · exact .inl (hback.eq_of_length heq ▸ hglob)
  · rintro (hglob | ⟨back, hback, -, hglob⟩)
    · exact ⟨_, List.suffix_rfl, hglob⟩
    · exact ⟨back, hback, hglob⟩

theorem not_glob (hsame : ¬(pattern.head? = some 0x3f ∨ pattern.head? = some byte))
    (hhead : pattern.head? ≠ some 0x2a) : ¬Glob pattern (byte :: rest) := by
  cases pattern with
  | nil => exact fun h => nomatch h
  | cons first pattern =>
    intro h
    obtain ⟨_, _, heq, hfirst, -⟩ := (glob_cons fun h => hhead (congrArg some h)).mp h
    obtain ⟨rfl, -⟩ := List.cons.inj heq
    exact hsame (hfirst.imp (congrArg some) (congrArg some))

/-- **The loop decides the glob relation** where the value has no star: an earlier star succeeds
    only where the last one does. -/
theorem matchLoop_iff (hstar : ∀ s ∈ star, value.length ≤ s.2.length)
    (h : Tracked pattern value star) :
    matchLoop pattern value star hstar = true ↔ Glob pattern value ∨ Retries star := by
  fun_induction matchLoop pattern value star hstar with
  | case1 pattern star hstar =>
    rw [← glob_nil]
    refine (or_iff_left fun hretries => ?_).symm
    obtain ⟨rest, -, hlt, -⟩ := h.of_retries hretries
    exact Nat.not_lt_zero _ hlt
  | case2 pattern star byte rest hstar hsame _ ih =>
    obtain ⟨hvalue, htracked⟩ := h
    rw [List.mem_cons, not_or] at hvalue
    cases pattern with
    | nil => simp at hsame
    | cons first pattern =>
      have hfirst : first = 0x3f ∨ first = byte := by simpa using hsame
      have hplain : first ≠ 0x2a := by
        rintro rfl
        rcases hfirst with hfirst | hfirst
        · cases hfirst
        · exact hvalue.1 hfirst
      have hglob : Glob (first :: pattern) (byte :: rest) ↔ Glob pattern rest := by
        rw [glob_cons hplain]
        constructor
        · rintro ⟨_, _, heq, -, h⟩
          obtain ⟨-, rfl⟩ := List.cons.inj heq
          exact h
        · exact fun h => ⟨byte, rest, rfl, hfirst, h⟩
      rw [hglob]
      refine ih ⟨hvalue.2, fun s hs => ?_⟩
      obtain ⟨hclean, passed, front, hafter, hpassed, hvalue, hlength⟩ := htracked s hs
      refine ⟨hclean, passed ++ [first], front ++ [byte], ?_, ?_, ?_, ?_⟩
      · simp [hafter]
      · simp [hpassed, Ne.symm hplain]
      · simp [hvalue]
      · simp [hlength]
  | case3 pattern star byte rest hstar hsame hhead _ ih =>
    cases pattern with
    | nil => cases hhead
    | cons first pattern =>
      obtain rfl := Option.some.inj hhead
      rw [ih ⟨h.1, fun s hs => ?_⟩, List.tail_cons, ← glob_star_iff]
      · refine (or_iff_left_of_imp fun hretries => ?_).symm
        obtain ⟨back, hback, -, hglob⟩ := h.of_retries hretries
        obtain ⟨back', hback', hglob⟩ := (glob_star).mp hglob
        exact (glob_star).mpr ⟨back', hback'.trans hback, hglob⟩
      · cases hs
        exact ⟨h.1, [], [], rfl, List.not_mem_nil, rfl, rfl⟩
  | case4 pattern byte rest hsame hhead hstar =>
    refine iff_of_false Bool.false_ne_true ?_
    rintro (hglob | ⟨s, hs, -⟩)
    · exact not_glob hsame hhead hglob
    · cases hs
  | case5 pattern byte rest hsame hhead after taken hstar _ ih =>
    have hle : rest.length + 1 ≤ taken.length := hstar _ rfl
    have hclean := (h.2 _ rfl).1
    cases taken with
    | nil => cases hle
    | cons first taken =>
      rw [or_iff_right (not_glob hsame hhead), retries_iff]
      rw [List.mem_cons, not_or] at hclean
      refine ih ⟨hclean.2, fun s hs => ?_⟩
      cases hs
      exact ⟨hclean.2, [], [], rfl, List.not_mem_nil, rfl, rfl⟩

/-! ## 3. Host patterns -/

theorem star_of_mem_lowerBytes {host : Str} (h : 0x2a ∈ lowerBytes host) : '*' ∈ host := by
  obtain ⟨lower, hlower, hnat⟩ := mem_asBytes_ascii (by decide) h
  obtain ⟨c, hc, rfl⟩ := List.mem_map.mp hlower
  delta Char.toLower at hnat
  split at hnat
  · rename_i hupper
    have hlow : 65 ≤ c.val.toNat := hupper.1
    have hhigh : c.val.toNat ≤ 90 := hupper.2
    have hnat : (c.val + 32).toNat = 42 := hnat
    rw [UInt32.toNat_add] at hnat
    have h32 : (32 : UInt32).toNat = 32 := rfl
    omega
  · have hstar : c = '*' := Char.toNat_inj.mp hnat
    exact hstar ▸ hc

theorem lowerBytes_append (s t : Str) : lowerBytes (s ++ t) = lowerBytes s ++ lowerBytes t := by
  rw [lowerBytes, List.map_append, asBytes_append]
  rfl

theorem lowerBytes_replicate (n : Nat) :
    lowerBytes (List.replicate n '?') = List.replicate n 0x3f := by
  induction n with
  | zero => rfl
  | succ n ih => exact congrArg (0x3f :: ·) ih

theorem glob_replicate (value : List UInt8) : Glob (List.replicate value.length 0x3f) value := by
  induction value with
  | nil => rfl
  | cons byte value ih => exact (glob_cons (by decide)).mpr ⟨byte, value, rfl, .inl rfl, ih⟩

/-- Equal bytes are taken as they are, a star too. -/
theorem matchLoop_append (front pattern value : List UInt8) :
    matchLoop (front ++ pattern) (front ++ value) none nofun =
      matchLoop pattern value none nofun := by
  induction front with
  | nil => rfl
  | cons byte front ih =>
    rw [List.cons_append, List.cons_append, matchLoop, dif_pos (.inr rfl)]
    exact ih

theorem matchLoop_replicate (value : List UInt8) :
    matchLoop (List.replicate (value.length + 1) 0x3f) value none nofun = false := by
  induction value with
  | nil => rw [matchLoop]; rfl
  | cons byte value ih =>
    rw [matchLoop]
    exact ih

theorem patternsLoop_iff (host : Str) (positiveMatch : Bool) (patterns : List Str) :
    patternsLoop host positiveMatch patterns = true ↔
      (positiveMatch = true ∨ ∃ pattern ∈ patterns, (stripNegation pattern).1 = false ∧
        wildcardMatch (stripNegation pattern).2 host = true) ∧
      ∀ pattern ∈ patterns, (stripNegation pattern).1 = true →
        wildcardMatch (stripNegation pattern).2 host = false := by
  induction patterns generalizing positiveMatch with
  | nil => simp [patternsLoop]
  | cons pattern patterns ih =>
    rw [patternsLoop, List.forall_mem_cons]
    cases hmatch : wildcardMatch (stripNegation pattern).2 host <;>
      cases hnegated : (stripNegation pattern).1 <;> simp [ih, hmatch, hnegated]

/-- `*?` is any host that is not empty, but not `*`. -/
theorem wildcard_match_star : wildcardMatch ['*', '?'] ['*'] = false ∧
    Glob (lowerBytes ['*', '?']) (lowerBytes ['*']) :=
  ⟨(matchLoop_append [0x2a] [0x3f] []).trans (matchLoop_replicate []),
    (glob_star).mpr ⟨_, List.suffix_rfl, glob_replicate [0x2a]⟩⟩

/-- **Host patterns are globs** for a host without `*`, and for no other: there `*` and as many `?`
    as the host has bytes from its `*` on match as a glob, but the loop takes one `*` for the other. -/
theorem host_patterns_iff (host : Str) :
    ((∀ pattern, wildcardMatch pattern host = true ↔
        Glob (lowerBytes pattern) (lowerBytes host)) ∧
      ∀ patterns, hostPatternsMatch patterns host = true ↔
        (∃ pattern ∈ patterns, (stripNegation pattern).1 = false ∧
          Glob (lowerBytes (stripNegation pattern).2) (lowerBytes host)) ∧
        ∀ pattern ∈ patterns, (stripNegation pattern).1 = true →
          ¬Glob (lowerBytes (stripNegation pattern).2) (lowerBytes host)) ↔ '*' ∉ host := by
  constructor
  · rintro ⟨hglob, -⟩ hhost
    obtain ⟨front, back, rfl⟩ := List.append_of_mem hhost
    let value := lowerBytes back
    have hpattern : lowerBytes (front ++ '*' :: List.replicate (value.length + 1) '?') =
        (lowerBytes front ++ [0x2a]) ++ List.replicate (value.length + 1) 0x3f := by
      rw [lowerBytes_append, List.append_assoc, ← lowerBytes_replicate]
      rfl
    have hvalue : lowerBytes (front ++ '*' :: back) = (lowerBytes front ++ [0x2a]) ++ value := by
      rw [lowerBytes_append, List.append_assoc]
      rfl
    have h := (hglob (front ++ '*' :: List.replicate (value.length + 1) '?')).mpr <| by
      rw [hpattern, hvalue, List.append_assoc, List.append_assoc]
      exact Glob.append_left ((glob_star).mpr ⟨_, List.suffix_rfl, glob_replicate (0x2a :: value)⟩) _
    simp only [wildcardMatch, hpattern, hvalue, matchLoop_append, matchLoop_replicate] at h
    cases h
  · intro hhost
    have hglob : ∀ pattern, wildcardMatch pattern host = true ↔
        Glob (lowerBytes pattern) (lowerBytes host) := by
      intro pattern
      rw [wildcardMatch, matchLoop_iff _ ⟨mt star_of_mem_lowerBytes hhost, fun _ hs => by cases hs⟩]
      refine or_iff_left ?_
      rintro ⟨_, hs, -⟩
      cases hs
    refine ⟨hglob, fun patterns => ?_⟩
    simp only [hostPatternsMatch, patternsLoop_iff, ← hglob, Bool.not_eq_true, Bool.false_eq_true,
      false_or]

end Hapcli.Connections
