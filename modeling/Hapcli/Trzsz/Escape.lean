/-
  Subject:   The escaping of binary data with the table of a protocol config.

  A table lists characters, and for each the two that stand for it. Its strings become bytes by
  `as_bytes`, so the bytes are those of the table as long as it is ASCII.

  * `unescapeData_escapeData` -- **codes that differ**, each with an escaped byte in front, can be
    taken back;
  * **`escape_round_trip`** -- that, with what a listed byte needs to be absent.
-/
import Hapcli.Trzsz.Transfer
import Mathlib.Data.List.Nodup

namespace Hapcli.Trzsz

open Hapcli.Rust

/-! ## 1. Codes -/

variable {codes : List EscapeCode} {value : UInt8}

theorem unescapeData_plain (h : ∀ code ∈ codes, code.first ≠ value) (data : List UInt8) :
    unescapeData codes (value :: data) = value :: unescapeData codes data := by
  cases data with
  | nil => rfl
  | cons next data =>
    have hnone : codes.find? (fun code => value == code.first && next == code.second) = none := by
      refine List.find?_eq_none.mpr fun code hcode => ?_
      simp [Ne.symm (h code hcode)]
    rw [unescapeData, hnone]

theorem unescapeData_escapeData (hdistinct : ∀ code ∈ codes, ∀ code' ∈ codes,
      code.first = code'.first → code.second = code'.second → code.byte = code'.byte)
    (hleads : ∀ code ∈ codes, ∃ code' ∈ codes, code'.byte = code.first) (data : List UInt8) :
    unescapeData codes (escapeData data codes) = data := by
  induction data with
  | nil => rfl
  | cons value data ih =>
    rw [escapeData, List.flatMap_cons, ← escapeData]
    cases hfind : codes.find? (·.byte == value) with
    | none =>
      have hplain : ∀ code ∈ codes, code.first ≠ value := by
        rintro code hcode rfl
        obtain ⟨code', hcode', hbyte⟩ := hleads code hcode
        exact List.find?_eq_none.mp hfind code' hcode' (beq_iff_eq.mpr hbyte)
      exact (unescapeData_plain hplain _).trans (congrArg _ ih)
    | some code =>
      have hcode := List.mem_of_find?_eq_some hfind
      have hbyte : code.byte = value := by simpa using List.find?_some hfind
      obtain ⟨found, hfound⟩ : ∃ found, codes.find?
          (fun other => code.first == other.first && code.second == other.second) =
            some found :=
        Option.isSome_iff_exists.mp (List.find?_isSome.mpr ⟨code, hcode, by simp⟩)
      obtain ⟨hfirst, hsecond⟩ : code.first = found.first ∧ code.second = found.second := by
        simpa using List.find?_some hfound
      have hsame := hdistinct code hcode found (List.mem_of_find?_eq_some hfound) hfirst hsecond
      rw [List.cons_append, List.singleton_append, unescapeData, hfound]
      exact congrArg₂ List.cons (hsame.symm.trans hbyte) ih

/-- What is in the escaped data is a byte that is not listed, or one of a code. -/
theorem mem_escapeData {data : List UInt8} (h : value ∈ escapeData data codes) :
    (∀ code ∈ codes, code.byte ≠ value) ∨
      ∃ code ∈ codes, value = code.first ∨ value = code.second := by
  obtain ⟨source, -, hvalue⟩ := List.mem_flatMap.mp h
  cases hfind : codes.find? (·.byte == source) with
  | none =>
    rw [hfind] at hvalue
    obtain rfl := List.mem_singleton.mp hvalue
    exact .inl fun code hcode => by simpa using List.find?_eq_none.mp hfind code hcode
  | some code =>
    rw [hfind] at hvalue
    exact .inr ⟨code, List.mem_of_find?_eq_some hfind, List.mem_pair.mp hvalue⟩

/-! ## 2. Tables -/

/-- A character of a table, and the two that stand for it. -/
structure EscapeEntry where
  listed : Char
  lead : Char
  second : Char

/-- A table as it travels. -/
def tableOf (entries : List EscapeEntry) : List (List Str) :=
  entries.map fun entry => [[entry.listed], [entry.lead, entry.second]]

/-- The byte of a code point below U+0100. -/
def byteOf (ch : Char) : UInt8 := UInt8.ofNat ch.toNat

/-- The code points of a table are below a bound, its codes differ, and what is in front in a code
    is escaped itself. -/
structure EscapeTable (bound : Nat) (entries : List EscapeEntry) : Prop where
  below : ∀ entry ∈ entries, entry.listed.toNat < bound ∧ entry.lead.toNat < bound ∧
    entry.second.toNat < bound
  distinct : (entries.map fun entry => (entry.lead, entry.second)).Nodup
  leads : ∀ entry ∈ entries, ∃ entry' ∈ entries, entry'.listed = entry.lead

variable {entries : List EscapeEntry}

theorem byteOf_inj {c d : Char} (hc : c.toNat < 0x80) (hd : d.toNat < 0x80)
    (h : byteOf c = byteOf d) : c = d := by
  have hbytes := congrArg UInt8.toNat h
  simp only [byteOf, UInt8.toNat_ofNat'] at hbytes
  exact Char.toNat_inj.mp (by omega)

theorem escapeCharsToCodes_tableOf (h : EscapeTable 0x80 entries) :
    escapeCharsToCodes (tableOf entries) = entries.map fun entry =>
      ⟨byteOf entry.listed, byteOf entry.lead, byteOf entry.second⟩ := by
  rw [escapeCharsToCodes, tableOf, List.filterMap_map, ← List.filterMap_eq_map]
  refine List.filterMap_congr fun entry hentry => ?_
  obtain ⟨hlisted, hlead, hsecond⟩ := h.below entry hentry
  simp [escapeCode, utf8EncodeChar_ascii, byteOf, *]

/-- **The escaping of binary data** with an ASCII table: it can be taken back, and a listed byte
    that is in no code is absent. -/
theorem escape_round_trip (h : EscapeTable 0x80 entries) (data : List UInt8) :
    let codes := escapeCharsToCodes (tableOf entries)
    unescapeData codes (escapeData data codes) = data ∧
      ∀ entry ∈ entries,
        (∀ entry' ∈ entries, entry.listed ≠ entry'.lead ∧ entry.listed ≠ entry'.second) →
        byteOf entry.listed ∉ escapeData data codes := by
  intro codes
  have hcodes : codes = _ := escapeCharsToCodes_tableOf h
  constructor
  · refine unescapeData_escapeData ?_ ?_ data
    · rw [hcodes]
      simp only [List.forall_mem_map]
      intro entry hentry entry' hentry' hfirst hsecond
      obtain ⟨-, hlead, hlast⟩ := h.below entry hentry
      obtain ⟨-, hlead', hlast'⟩ := h.below entry' hentry'
      have hpair : (entry.lead, entry.second) = (entry'.lead, entry'.second) :=
        Prod.ext (byteOf_inj hlead hlead' hfirst) (byteOf_inj hlast hlast' hsecond)
      rw [List.inj_on_of_nodup_map h.distinct hentry hentry' hpair]
    · rw [hcodes]
      simp only [List.forall_mem_map]
      intro entry hentry
      obtain ⟨entry', hentry', hlisted⟩ := h.leads entry hentry
      exact ⟨_, List.mem_map_of_mem hentry', congrArg byteOf hlisted⟩
  · intro entry hentry hfree hmem
    obtain ⟨hlisted, -, -⟩ := h.below entry hentry
    rcases mem_escapeData hmem with hplain | ⟨code, hcode, hvalue⟩
    · exact hplain _ (hcodes ▸ List.mem_map_of_mem hentry) rfl
    · obtain ⟨entry', hentry', rfl⟩ := List.mem_map.mp (hcodes ▸ hcode)
      obtain ⟨-, hlead, hsecond⟩ := h.below entry' hentry'
      rcases hvalue with hvalue | hvalue
      · exact (hfree entry' hentry').1 (byteOf_inj hlisted hlead hvalue)
      · exact (hfree entry' hentry').2 (byteOf_inj hlisted hsecond hvalue)

/-- The newline and `!`, as the tests of the source have them. -/
theorem escape_round_trip_newline :
    let codes := escapeCharsToCodes (tableOf [⟨'!', '!', '!'⟩, ⟨'\n', '!', 'N'⟩])
    unescapeData codes (escapeData [0x61, 0x0a, 0x21] codes) = [0x61, 0x0a, 0x21] := by
  have htable : EscapeTable 0x80 [⟨'!', '!', '!'⟩, ⟨'\n', '!', 'N'⟩] :=
    ⟨by simp, by decide, by simp⟩
  exact (escape_round_trip htable _).1

/-- What is in front in a code stays in the escaped data; and a table beyond ASCII, here that of the
    protocol, is read as UTF-8, and makes two bytes one. -/
theorem escape_table_fails :
    (¬∀ entries, EscapeTable 0x100 entries → ∀ data, ∀ entry ∈ entries,
      byteOf entry.listed ∉ escapeData data (escapeCharsToCodes (tableOf entries))) ∧
    ¬∀ entries, EscapeTable 0x100 entries → ∀ data,
      unescapeData (escapeCharsToCodes (tableOf entries))
        (escapeData data (escapeCharsToCodes (tableOf entries))) = data := by
  constructor
  · intro h
    refine h [⟨'!', '!', '!'⟩] ⟨by simp, by decide, by simp⟩ [0x21] _ (List.mem_singleton_self _) ?_
    decide
  · intro h
    have hlost := h [⟨'î', 'î', 'î'⟩, ⟨'~', 'î', '1'⟩] ⟨by simp, by decide, by simp⟩ [0x7e]
    exact absurd hlost (by decide)

end Hapcli.Trzsz
