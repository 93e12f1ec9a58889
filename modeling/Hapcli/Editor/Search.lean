/-
  Subject:   `find_all` and `replace_all_transaction`, and what a buffer makes of the transaction.

  The alphanumeric characters are those of the standard library's table, a parameter here.

  * **`find_all_exact`** -- what is found is every occurrence, in order;
  * **`replace_all_applies_iff`** -- the transaction is accepted exactly when no two occurrences
    overlap: each search goes on one character after the last match, not behind it.
-/
import Hapcli.Editor.History

namespace Hapcli.Editor

open Hapcli.Rust

/-! ## 1. The search -/

structure FindOptions where
  caseSensitive : Bool
  wholeWord : Bool

/-- `u8::to_ascii_lowercase`. -/
def toAsciiLowercase (byte : UInt8) : UInt8 :=
  if 0x41 ≤ byte ∧ byte ≤ 0x5a then byte + 0x20 else byte

/-- `str::eq_ignore_ascii_case`. -/
def eqIgnoreAsciiCase (left right : Str) : Bool :=
  (asBytes left).map toAsciiLowercase == (asBytes right).map toAsciiLowercase

/-- What `next_match` asks of a place of the text, of which this is the rest. -/
def matchesAt (query : Str) (caseSensitive : Bool) (rest : Str) : Bool :=
  if caseSensitive then query.isPrefixOf rest
  else
    match splitAtByte (byteLen query) rest with
    | some (slice, _) => eqIgnoreAsciiCase slice query
    | none => false

/-- `next_match`, from a place of the text on: the place of the match. -/
def nextMatch (query : Str) (caseSensitive : Bool) : Str → Str → Option (Str × Str)
  | _, [] => none
  | before, c :: rest =>
    if matchesAt query caseSensitive (c :: rest) then some (before, c :: rest)
    else nextMatch query caseSensitive (before ++ [c]) rest

section Search

variable (isAlphanumeric : Char → Bool)

def isWordChar (ch : Char) : Bool := ch == '_' || isAlphanumeric ch

/-- `is_whole_word_match`, of what is before the match and what is behind it. -/
def isWholeWordMatch (before behind : Str) : Bool :=
  !before.getLast?.any (isWordChar isAlphanumeric) &&
    !behind.head?.any (isWordChar isAlphanumeric)

/-- What `find_all` asks of a match: boundaries, and a whole word if that is wanted. -/
def acceptsMatch (query : Str) (options : FindOptions) (before rest : Str) : Bool :=
  match splitAtByte (byteLen query) rest with
  | some (_, behind) => !options.wholeWord || isWholeWordMatch isAlphanumeric before behind
  | none => false

/-- The loop of `find_all`: the search goes on at `next_search_offset`. -/
def findLoop (query : Str) (options : FindOptions) : Nat → Str → Str → List TextRange
  | 0, _, _ => []
  | fuel + 1, before, rest =>
    match nextMatch query options.caseSensitive before rest with
    | none => []
    | some (before, rest) =>
      let start := byteLen before
      let later := findLoop query options fuel (before ++ rest.take 1) (rest.drop 1)
      if acceptsMatch isAlphanumeric query options before rest then
        .new start (start + byteLen query) :: later
      else later

/-- `find_all`. A round of the loop is for at least one character. -/
def findAll (source query : Str) (options : FindOptions) : List TextRange :=
  if query.isEmpty then []
  else findLoop isAlphanumeric query options source.length [] source

def replaceAllTransaction (source query replacement : Str) (options : FindOptions) :
    List TextEdit :=
  (findAll isAlphanumeric source query options).map fun range => { range, replacement }

/-! ## 2. Occurrences -/

/-- An occurrence of the query in a text, as the options have it. -/
structure Occurs (query : Str) (options : FindOptions) (source before hit behind : Str) : Prop where
  text : source = before ++ hit ++ behind
  same : if options.caseSensitive then hit = query else eqIgnoreAsciiCase hit query = true
  word : options.wholeWord = true → isWholeWordMatch isAlphanumeric before behind = true

variable {isAlphanumeric} {before behind hit query rest source : Str} {options : FindOptions}

theorem byteLen_eq_of_same {caseSensitive : Bool}
    (h : if caseSensitive then hit = query else eqIgnoreAsciiCase hit query = true) :
    byteLen hit = byteLen query := by
  cases caseSensitive with
  | true => exact congrArg byteLen h
  | false => simpa [byteLen] using congrArg List.length (eq_of_beq h)

theorem matchesAt_iff {caseSensitive : Bool} :
    matchesAt query caseSensitive rest = true ↔ ∃ hit behind, rest = hit ++ behind ∧
      if caseSensitive then hit = query else eqIgnoreAsciiCase hit query = true := by
  cases caseSensitive with
  | true =>
    simp only [matchesAt, if_true, List.isPrefixOf_iff_prefix]
    constructor
    · rintro ⟨behind, rfl⟩
      exact ⟨query, behind, rfl, rfl⟩
    · rintro ⟨_, behind, rfl, rfl⟩
      exact List.prefix_append ..
  | false =>
    simp only [matchesAt, Bool.false_eq_true, if_false]
    constructor
    · intro h
      cases hsplit : splitAtByte (byteLen query) rest with
      | none =>
        rw [hsplit] at h
        cases h
      | some parts =>
        rw [hsplit] at h
        exact ⟨parts.1, parts.2, (splitAtByte_eq_some.mp hsplit).1, h⟩
    · rintro ⟨hit, behind, rfl, hsame⟩
      have hlen : byteLen hit = byteLen query := @byteLen_eq_of_same hit query false hsame
      rw [splitAtByte_eq_some.mpr ⟨rfl, hlen⟩]
      exact hsame

theorem accepted_iff :
    (matchesAt query options.caseSensitive rest &&
      acceptsMatch isAlphanumeric query options before rest) = true ↔
      ∃ hit behind, Occurs isAlphanumeric query options (before ++ rest) before hit behind := by
  rw [Bool.and_eq_true, matchesAt_iff]
  constructor
  · rintro ⟨⟨hit, behind, rfl, hsame⟩, haccepts⟩
    rw [acceptsMatch, splitAtByte_eq_some.mpr ⟨rfl, byteLen_eq_of_same hsame⟩] at haccepts
    refine ⟨hit, behind, (List.append_assoc ..).symm, hsame, fun hword => ?_⟩
    simpa [hword] using haccepts
  · rintro ⟨hit, behind, htext, hsame, hword⟩
    rw [List.append_assoc, List.append_cancel_left_eq] at htext
    subst htext
    refine ⟨⟨hit, behind, rfl, hsame⟩, ?_⟩
    rw [acceptsMatch, splitAtByte_eq_some.mpr ⟨rfl, byteLen_eq_of_same hsame⟩]
    cases hwhole : options.wholeWord with
    | false => rfl
    | true => simp [hword hwhole]

/-- The accepted matches from a place on, one place after the other. -/
@[grind] def matchesFrom (isAlphanumeric : Char → Bool) (query : Str) (options : FindOptions) :
    Str → Str → List TextRange
  | _, [] => []
  | before, c :: rest =>
    if matchesAt query options.caseSensitive (c :: rest) &&
        acceptsMatch isAlphanumeric query options before (c :: rest) then
      .new (byteLen before) (byteLen before + byteLen query) ::
        matchesFrom isAlphanumeric query options (before ++ [c]) rest
    else matchesFrom isAlphanumeric query options (before ++ [c]) rest

theorem nextMatch_cases (isAlphanumeric : Char → Bool) (query : Str) (options : FindOptions)
    (before rest : Str) :
    (nextMatch query options.caseSensitive before rest = none ∧
      matchesFrom isAlphanumeric query options before rest = []) ∨
    ∃ place c behind, nextMatch query options.caseSensitive before rest =
        some (place, c :: behind) ∧ behind.length < rest.length ∧
      matchesAt query options.caseSensitive (c :: behind) = true ∧
      matchesFrom isAlphanumeric query options before rest =
        matchesFrom isAlphanumeric query options place (c :: behind) := by
  induction rest generalizing before with
  | nil => exact .inl ⟨rfl, rfl⟩
  | cons c rest ih =>
    by_cases hmatch : matchesAt query options.caseSensitive (c :: rest) = true
    · have hnext : nextMatch query options.caseSensitive before (c :: rest) =
          some (before, c :: rest) := by rw [nextMatch, if_pos hmatch]
      exact .inr ⟨before, c, rest, hnext, Nat.lt_succ_self _, hmatch, rfl⟩
    · have hpassed : matchesFrom isAlphanumeric query options before (c :: rest) =
          matchesFrom isAlphanumeric query options (before ++ [c]) rest := by
        rw [matchesFrom, if_neg (by simp [hmatch])]
      rw [nextMatch, if_neg hmatch, hpassed]
      rcases ih (before ++ [c]) with hnone | ⟨place, d, behind, hnext, hlength, hrest⟩
      · exact .inl hnone
      · exact .inr ⟨place, d, behind, hnext, Nat.lt_succ_of_lt hlength, hrest⟩

theorem findLoop_eq {fuel : Nat} (hfuel : rest.length ≤ fuel) :
    findLoop isAlphanumeric query options fuel before rest =
      matchesFrom isAlphanumeric query options before rest := by
  induction fuel generalizing before rest with
  | zero =>
    rw [List.length_eq_zero_iff.mp (Nat.le_zero.mp hfuel)]
    rfl
  | succ fuel ih =>
    rw [findLoop]
    rcases nextMatch_cases isAlphanumeric query options before rest with
      ⟨hnext, hnone⟩ | ⟨place, c, behind, hnext, hlength, hmatch, hfrom⟩
    · rw [hnext, hnone]
    · rw [hnext, hfrom, matchesFrom, hmatch, Bool.true_and]
      simp only [List.take_succ_cons, List.take_zero, List.drop_succ_cons, List.drop_zero]
      rw [ih (by omega)]

section

variable (hquery : query ≠ [])

include hquery

theorem mem_matchesFrom {range : TextRange} :
    range ∈ matchesFrom isAlphanumeric query options before rest ↔
      ∃ front hit behind,
        Occurs isAlphanumeric query options (before ++ rest) (before ++ front) hit behind ∧
        range = ⟨byteLen (before ++ front), byteLen (before ++ front) + byteLen query⟩ := by
  induction rest generalizing before with
  | nil =>
    constructor
    · intro h
      cases h
    · rintro ⟨front, hit, behind, ⟨htext, hsame, -⟩, -⟩
      have hpos := byteLen_pos hquery
      have hhit := byteLen_eq_of_same hsame
      have hlen := congrArg byteLen htext
      simp only [byteLen_append, byteLen_nil] at hlen
      omega
  | cons c rest ih =>
    have hstep : range ∈ matchesFrom isAlphanumeric query options before (c :: rest) ↔
        ((∃ hit behind, Occurs isAlphanumeric query options (before ++ c :: rest) before hit
            behind) ∧ range = ⟨byteLen before, byteLen before + byteLen query⟩) ∨
          range ∈ matchesFrom isAlphanumeric query options (before ++ [c]) rest := by
      rw [matchesFrom, ← accepted_iff, TextRange.new, if_pos (Nat.le_add_right _ _)]
      split <;> simp [*]
    rw [hstep, ih]
    constructor
    · rintro (⟨⟨hit, behind, hoccurs⟩, rfl⟩ | ⟨front, hit, behind, hoccurs, rfl⟩)
      · exact ⟨[], hit, behind, by simpa using hoccurs, by simp⟩
      · exact ⟨c :: front, hit, behind, by simpa using hoccurs, by simp⟩
    · rintro ⟨front, hit, behind, hoccurs, rfl⟩
      cases front with
      | nil => exact .inl ⟨⟨hit, behind, by simpa using hoccurs⟩, by simp⟩
      | cons d front =>
        obtain ⟨rfl, -⟩ : c = d ∧ _ := by simpa using hoccurs.text
        exact .inr ⟨front, hit, behind, by simpa using hoccurs, by simp⟩

theorem matchesFrom_pairwise (before rest : Str) :
    (matchesFrom isAlphanumeric query options before rest).Pairwise
      fun left right => left.start < right.start := by
  induction rest generalizing before with
  | nil => exact .nil
  | cons c rest ih =>
    rw [matchesFrom]
    split
    · refine .cons (fun range hrange => ?_) (ih _)
      obtain ⟨front, -, -, -, rfl⟩ := (mem_matchesFrom hquery).mp hrange
      have := c.utf8Size_pos
      simp only [TextRange.new, Nat.le_add_right, if_true, byteLen_append, byteLen_cons]
      omega
    · exact ih _

theorem findAll_eq : findAll isAlphanumeric source query options =
    matchesFrom isAlphanumeric query options [] source := by
  rw [findAll, if_neg (by simpa using hquery), findLoop_eq (Nat.le_refl _)]

theorem mem_findAll_iff {range : TextRange} : range ∈ findAll isAlphanumeric source query options ↔
      ∃ before hit behind, Occurs isAlphanumeric query options source before hit behind ∧
        range = ⟨byteLen before, byteLen before + byteLen query⟩ := by
  rw [findAll_eq hquery]
  exact mem_matchesFrom hquery

end

theorem findAll_pairwise (isAlphanumeric : Char → Bool) (source query : Str)
    (options : FindOptions) :
    (findAll isAlphanumeric source query options).Pairwise
      fun left right => left.start < right.start := by
  by_cases hquery : query = []
  · subst hquery
    exact .nil
  · rw [findAll_eq hquery]
    exact matchesFrom_pairwise hquery [] source

/-- **The search is exact**: in order, the places of a query that is not empty. -/
theorem find_all_exact (isAlphanumeric : Char → Bool) (source query : Str) (options : FindOptions) :
    (findAll isAlphanumeric source query options).Pairwise
        (fun left right => left.start < right.start) ∧
      ∀ range, range ∈ findAll isAlphanumeric source query options ↔
        query ≠ [] ∧ ∃ before hit behind,
          Occurs isAlphanumeric query options source before hit behind ∧
          range = ⟨byteLen before, byteLen (before ++ hit)⟩ := by
  refine ⟨findAll_pairwise isAlphanumeric source query options, fun range => ?_⟩
  by_cases hquery : query = []
  · subst hquery
    exact iff_of_false (fun h => nomatch h) fun h => h.1 rfl
  · rw [mem_findAll_iff hquery, and_iff_right hquery]
    refine exists₃_congr fun before hit behind => and_congr_right fun hoccurs => ?_
    rw [byteLen_append, byteLen_eq_of_same hoccurs.same]

/-- An empty query is nowhere found. -/
theorem find_all_empty_query :
    ¬∀ (isAlphanumeric : Char → Bool) (source query : Str) (options : FindOptions) (range : TextRange),
      range ∈ findAll isAlphanumeric source query options ↔ ∃ before hit behind,
        Occurs isAlphanumeric query options source before hit behind ∧
        range = ⟨byteLen before, byteLen (before ++ hit)⟩ := by
  intro h
  have hfound := (h (fun _ => false) [] [] ⟨true, false⟩ ⟨0, 0⟩).mpr
    ⟨[], [], [], ⟨rfl, rfl, fun hword => nomatch hword⟩, rfl⟩
  cases hfound

end Search

/-! ## 3. The transaction -/

/-- Edits that lie on boundaries pass the checks exactly when they lie apart. -/
theorem validateEdits_eq_ok_iff {storage : PieceTableTextBuffer} {edits : List TextEdit}
    {previousEnd : Nat}
    (h : ∀ edit ∈ edits, validateOffsetForStorage storage edit.range.start = .ok () ∧
      validateOffsetForStorage storage edit.range.stop = .ok () ∧
      edit.range.start ≤ edit.range.stop) :
    validateEdits storage edits previousEnd = .ok () ↔
      (∀ edit ∈ edits, previousEnd ≤ edit.range.start) ∧
        edits.Pairwise fun left right => left.range.stop ≤ right.range.start := by
  induction edits generalizing previousEnd with
  | nil => simp [validateEdits]
  | cons edit edits ih =>
    obtain ⟨⟨hstart, hstop, hrange⟩, hrest⟩ := List.forall_mem_cons.mp h
    rw [List.pairwise_cons, List.forall_mem_cons]
    constructor
    · intro hvalid
      obtain ⟨-, -, -, hprevious, hvalid⟩ := validateEdits_cons hvalid
      obtain ⟨hafter, happart⟩ := (ih hrest).mp hvalid
      have hle := hprevious.trans hrange
      exact ⟨⟨hprevious, fun later hlater => hle.trans (hafter later hlater)⟩, hafter, happart⟩
    · rintro ⟨⟨hprevious, -⟩, hafter, happart⟩
      rw [validateEdits, hstart, hstop]
      simp only [Nat.not_lt_of_le hrange, Nat.not_lt_of_le hprevious, if_false]
      exact (ih hrest).mpr ⟨hafter, happart⟩

namespace TextBuffer

theorem Consistent.applyTransaction_ok_iff {b : TextBuffer} {text : Str} {edits : List TextEdit}
    (h : b.Consistent text) (hsorted : edits.mergeSort rangeLe = edits) :
    (∃ b', b.applyTransaction edits = some (.ok (), b')) ↔
      validateEdits b.storage edits 0 = .ok () := by
  by_cases hempty : edits = []
  · subst hempty
    exact ⟨fun _ => rfl, fun _ => ⟨b, rfl⟩⟩
  · have hnext : { b with
        nextContentRevision := saturatingSucc b.nextContentRevision }.Consistent text :=
      h.congr rfl rfl rfl
    rw [TextBuffer.applyTransaction, if_neg (by simpa using hempty)]
    rcases hnext.applyEditsInternal_cases edits with
      ⟨e, hnormal, happly⟩ | ⟨sorted, inverse, edited, hnormal, -, -, happly⟩
    · simp only [happly]
      constructor
      · rintro ⟨b', hb⟩
        cases hb
      · intro hvalid
        simp only [normalizeEditsForStorage, hsorted, hvalid] at hnormal
        cases hnormal
    · simp only [happly]
      refine ⟨fun _ => ?_, fun _ => ⟨_, rfl⟩⟩
      simp only [normalizeEditsForStorage, hsorted] at hnormal
      cases hvalid : validateEdits b.storage edits 0 with
      | error e =>
        rw [hvalid] at hnormal
        cases hnormal
      | ok => rfl

section Replace

variable (isAlphanumeric : Char → Bool) {b : TextBuffer} {source : Str}

/-- **Replace-all** is accepted exactly when no two occurrences overlap. -/
theorem replace_all_applies_iff (h : b.Consistent source) (query replacement : Str)
    (options : FindOptions) :
    (∃ b', b.applyTransaction
        (replaceAllTransaction isAlphanumeric source query replacement options) =
          some (.ok (), b')) ↔
      ∀ before hit behind before' hit' behind',
        Occurs isAlphanumeric query options source before hit behind →
        Occurs isAlphanumeric query options source before' hit' behind' →
        byteLen before < byteLen before' → byteLen before + byteLen hit ≤ byteLen before' := by
  have hordered := findAll_pairwise isAlphanumeric source query options
  have hsorted : (replaceAllTransaction isAlphanumeric source query replacement options).mergeSort
      rangeLe = replaceAllTransaction isAlphanumeric source query replacement options := by
    refine List.mergeSort_of_pairwise (List.pairwise_map.mpr (hordered.imp ?_))
    intro left right hlt
    simp [rangeLe, hlt]
  rw [h.applyTransaction_ok_iff hsorted]
  by_cases hquery : query = []
  · subst hquery
    refine ⟨fun _ before hit _ before' _ _ hoccurs _ hlt => ?_, fun _ => rfl⟩
    rw [byteLen_eq_of_same hoccurs.same]
    exact Nat.le_of_lt hlt
  · have hedits : ∀ edit ∈ replaceAllTransaction isAlphanumeric source query replacement options,
        validateOffsetForStorage b.storage edit.range.start = .ok () ∧
        validateOffsetForStorage b.storage edit.range.stop = .ok () ∧
        edit.range.start ≤ edit.range.stop := by
      intro edit hedit
      obtain ⟨range, hrange, rfl⟩ := List.mem_map.mp hedit
      obtain ⟨before, hit, behind, hoccurs, rfl⟩ := (mem_findAll_iff hquery).mp hrange
      have hlen := byteLen_eq_of_same hoccurs.same
      have htext := hoccurs.text
      refine ⟨validateOffset_of_boundary h.represents (isCharBoundary_iff.mpr
          ⟨before, hit ++ behind, by rw [htext, List.append_assoc], rfl⟩),
        validateOffset_of_boundary h.represents (isCharBoundary_iff.mpr
          ⟨before ++ hit, behind, htext, by rw [byteLen_append, hlen]⟩), Nat.le_add_right _ _⟩
    rw [validateEdits_eq_ok_iff hedits, replaceAllTransaction, List.pairwise_map]
    constructor
    · rintro ⟨-, happart⟩ before hit behind before' hit' behind' hoccurs hoccurs' hlt
      have hall : ∀ left ∈ findAll isAlphanumeric source query options,
          ∀ right ∈ findAll isAlphanumeric source query options,
            left.start < right.start → left.stop ≤ right.start := by
        refine List.Pairwise.forall_of_forall_of_flip (fun _ _ hself => ?_) ?_ ?_
        · exact absurd hself (Nat.lt_irrefl _)
        · refine List.Pairwise.imp ?_ happart
          exact fun hle _ => hle
        · exact hordered.imp fun hlt hgt => absurd hgt (Nat.lt_asymm hlt)
      rw [byteLen_eq_of_same hoccurs.same]
      exact hall _ ((mem_findAll_iff hquery).mpr ⟨before, hit, behind, hoccurs, rfl⟩) _
        ((mem_findAll_iff hquery).mpr ⟨before', hit', behind', hoccurs', rfl⟩) hlt
    · intro happart
      refine ⟨fun _ _ => Nat.zero_le _, hordered.imp_of_mem fun hleft hright hlt => ?_⟩
      obtain ⟨before, hit, behind, hoccurs, rfl⟩ := (mem_findAll_iff hquery).mp hleft
      obtain ⟨before', hit', behind', hoccurs', rfl⟩ := (mem_findAll_iff hquery).mp hright
      have hle := happart _ _ _ _ _ _ hoccurs hoccurs' hlt
      rw [byteLen_eq_of_same hoccurs.same] at hle
      exact hle

/-- `aa`, twice in a text and apart. -/
theorem replace_all_applies_apart :
    let options : FindOptions := { caseSensitive := true, wholeWord := false }
    ∃ b', (new ['a', 'a', 'b']).applyTransaction
      (replaceAllTransaction (fun _ => false) ['a', 'a', 'b'] ['a', 'a'] [] options) =
        some (.ok (), b') := by
  intro options
  have hstart : ∀ before hit behind, Occurs (fun _ => false) ['a', 'a'] options ['a', 'a', 'b']
      before hit behind → byteLen before = 0 := by
    intro before hit behind hoccurs
    have hmem := (mem_findAll_iff (by decide)).mpr ⟨before, hit, behind, hoccurs, rfl⟩
    exact congrArg TextRange.start (List.mem_singleton.mp hmem)
  refine (replace_all_applies_iff _ (consistent_new _) _ [] options).mpr ?_
  intro before hit behind before' hit' behind' _ hoccurs' hlt
  rw [hstart _ _ _ hoccurs'] at hlt
  cases hlt

/-- Two occurrences of `aa` in `aaa` make edits that are refused. -/
theorem overlapping_occurrences_refused :
    ¬∀ (isAlphanumeric : Char → Bool) (b : TextBuffer) (source : Str), b.Consistent source →
      ∀ (query replacement : Str) (options : FindOptions), ∃ b', b.applyTransaction
        (replaceAllTransaction isAlphanumeric source query replacement options) =
          some (.ok (), b') := by
  intro h
  let edits : List TextEdit := [⟨⟨0, 2⟩, []⟩, ⟨⟨1, 3⟩, []⟩]
  have hedits : replaceAllTransaction (fun _ => false) ['a', 'a', 'a'] ['a', 'a'] []
      { caseSensitive := true, wholeWord := false } = edits := by rfl
  obtain ⟨b', hb⟩ := h (fun _ => false) _ _ (consistent_new ['a', 'a', 'a']) ['a', 'a'] []
    { caseSensitive := true, wholeWord := false }
  have hsorted : edits.mergeSort rangeLe = edits := List.mergeSort_of_pairwise (by decide)
  have hvalid := ((consistent_new _).applyTransaction_ok_iff hsorted).mp ⟨b', hedits ▸ hb⟩
  cases hvalid

end Replace

end TextBuffer

end Hapcli.Editor
