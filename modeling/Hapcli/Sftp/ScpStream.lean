/-
  Subject:   THE STREAM OF A DIRECTORY, as the protocol has it: records, the bytes of files, and where
             the tree that they describe ends. Nothing here knows a channel or a buffer.

  * **`shaped_of_reads`** -- whatever the bytes, each entry lies below the root under safe names, has
    at most the bytes it was announced with, and has them all once something follows it.
-/
import Hapcli.Lib.Runs
import Hapcli.Sftp.ScpChannel

namespace Hapcli.Sftp

open Hapcli.Lib Hapcli.Rust

/-! ## 1. Entries -/

/-- A name that stays in its directory. -/
def SafeName (name : Str) : Prop :=
  name ≠ [] ∧ name ≠ ['.'] ∧ name ≠ ['.', '.'] ∧ '/' ∉ name ∧ '\\' ∉ name ∧ '\x00' ∉ name

/-- What a stream describes, with its place below the root: directories, and files with the announced
    size and the bytes that have followed. -/
inductive Entry where
  | directory (place : List Str)
  | file (place : List Str) (size : Nat) (contents : List UInt8)
  deriving DecidableEq

namespace Entry

def place : Entry → List Str
  | directory place => place
  | file place _ _ => place

/-- A file has the bytes it was announced with. -/
def Complete : Entry → Prop
  | directory _ => True
  | file _ size contents => contents.length = size

/-- A file has no more. -/
def Fits : Entry → Prop
  | directory _ => True
  | file _ size contents => contents.length ≤ size

/-- Some bytes more. -/
def append (bytes : List UInt8) : Entry → Entry
  | directory place => directory place
  | file place size contents => file place size (contents ++ bytes)

/-- The entry lies below the root, under safe names. -/
def Contained (entry : Entry) : Prop :=
  entry.place ≠ [] ∧ ∀ name ∈ entry.place, SafeName name

end Entry

/-- Some bytes more for the last entry. -/
def appendLast (entries : List Entry) (bytes : List UInt8) : List Entry :=
  match entries.getLast? with
  | some entry => entries.dropLast ++ [entry.append bytes]
  | none => []

/-! ## 2. A reader of the stream -/

/-- Where the reader stands: before a record (of the root, where there is no directory), in its
    line, in a file, behind it, at the end. -/
inductive Place where
  | record (directory : Option (List Str))
  | line (directory : Option (List Str)) (kind : UInt8) (text : List UInt8)
  | contents (directory : List Str) (remaining : Nat)
  | status (directory : List Str)
  | finished
  deriving DecidableEq

/-- In a file of which this many bytes are to come, or behind it. -/
def Place.file (directory : List Str) (remaining : Nat) : Place :=
  if remaining = 0 then .status directory else .contents directory remaining

/-- The reader: its place, and what has been described. -/
structure Stream where
  place : Place
  entries : List Entry
  deriving DecidableEq

/-- The bytes by which a record begins. -/
def recordKinds : List UInt8 := [67, 68, 69, 84]

/-- The record of a line that is not too long. -/
def recordOf (kind : UInt8) (text : List UInt8) : Option ScpRecord :=
  if scpMaxControlLineBytes < text.length then none
  else
    match fromUtf8 text with
    | .ok line => (parseRecord id kind line).toOption
    | .error _ => none

/-- After a record. -/
def recorded (entries : List Entry) : Option (List Str) → ScpRecord → Option Stream
  | none, .directory _ _ => some ⟨.record (some []), entries⟩
  | none, _ => none
  | some directory, .times => some ⟨.record (some directory), entries⟩
  | some directory, .endDirectory =>
    if directory = [] then some ⟨.finished, entries⟩
    else some ⟨.record (some directory.dropLast), entries⟩
  | some directory, .directory _ name =>
    some ⟨.record (some (directory ++ [name])), entries ++ [.directory (directory ++ [name])]⟩
  | some directory, .file _ size name =>
    some ⟨.file directory size, entries ++ [.file (directory ++ [name]) size []]⟩

/-- One more byte. -/
def Stream.next (s : Stream) (byte : UInt8) : Option Stream :=
  match s.place with
  | .record directory =>
    if byte ∈ recordKinds then some { s with place := .line directory byte [] } else none
  | .line directory kind text =>
    if byte = 10 then (recordOf kind text).bind (recorded s.entries directory)
    else some { s with place := .line directory kind (text ++ [byte]) }
  | .contents directory remaining =>
    some ⟨.file directory (remaining - 1), appendLast s.entries [byte]⟩
  | .status directory =>
    if byte = 0 then some { s with place := .record (some directory) } else none
  | .finished => none

/-- The reader gets this far with the bytes. -/
def Reads (bytes : List UInt8) (s : Stream) : Prop :=
  Runs.run Stream.next ⟨.record none, []⟩ bytes = some s

instance {bytes : List UInt8} {s : Stream} : Decidable (Reads bytes s) :=
  inferInstanceAs (Decidable (Runs.run Stream.next _ bytes = some s))

/-- The bytes describe a tree, and nothing follows it. -/
def WellFormed (bytes : List UInt8) : Prop := ∃ entries, Reads bytes ⟨.finished, entries⟩

example : Reads (asBytes "D0755 0 d\nC0644 2 f\nhi\x00E\n".toList)
    ⟨.finished, [.file [['f']] 2 [104, 105]]⟩ := by
  decide +kernel

/-! ## 3. Names -/

/-- The name in a record. -/
def ScpRecord.name : ScpRecord → Option Str
  | .file _ _ name => some name
  | .directory _ name => some name
  | .endDirectory | .times => none

section Names

variable {debug : Str → Str} {kind : UInt8} {line : Str} {record : ScpRecord} {name : Str}

theorem safeName_of_validateReceivedName (h : validateReceivedName debug name = .ok ()) :
    SafeName name := by
  obtain ⟨hne, hdot, hdots, hchars⟩ := validateReceivedName_ok h
  refine ⟨hne, hdot, hdots, fun hmem => ?_, fun hmem => ?_, fun hmem => ?_⟩
  · exact hchars _ hmem (by decide)
  · exact hchars _ hmem (by decide)
  · exact hchars _ hmem (by decide)

theorem safeName_of_parseFileOrDirectoryRecord
    (h : parseFileOrDirectoryRecord debug kind line = .ok record) (hname : record.name = some name) :
    SafeName name := by
  unfold parseFileOrDirectoryRecord at h
  dsimp only at h
  split at h
  · cases h
  · split at h
    · cases h
    · split at h
      · cases h
      · split at h
        · cases h
        · next parsed _ =>
            cases hvalid : validateReceivedName debug parsed with
            | error error =>
              rw [hvalid] at h
              cases h
            | ok _ =>
              have hsafe := safeName_of_validateReceivedName hvalid
              rw [hvalid] at h
              change (if _ then _ else if _ then _ else _) = _ at h
              split at h
              · cases h
                cases hname
                exact hsafe
              · split at h
                · cases h
                  cases hname
                  exact hsafe
                · split at h <;> cases h

theorem safeName_of_parseRecord (h : parseRecord debug kind line = .ok record)
    (hname : record.name = some name) : SafeName name := by
  unfold parseRecord at h
  split at h
  · cases h
  · split at h
    · exact safeName_of_parseFileOrDirectoryRecord h hname
    · split at h
      · split at h
        · cases h
        · cases h
          cases hname
      · cases hvalid : validateTimeRecord line with
        | error error =>
          rw [hvalid] at h
          cases h
        | ok _ =>
          rw [hvalid] at h
          cases h
          cases hname

variable {debug' : Str → Str}

theorem validateReceivedName_debug
    (h : validateReceivedName debug name = .ok ()) : validateReceivedName debug' name = .ok () := by
  unfold validateReceivedName at h ⊢
  split at h
  · cases h
  · next hsafe => exact if_neg hsafe

theorem parseFileOrDirectoryRecord_debug
    (h : parseFileOrDirectoryRecord debug kind line = .ok record) :
    parseFileOrDirectoryRecord debug' kind line = .ok record := by
  unfold parseFileOrDirectoryRecord at h ⊢
  dsimp only at h ⊢
  split at h
  · cases h
  · next hmode =>
      rw [if_neg hmode]
      generalize recordFields line = fields at h ⊢
      obtain ⟨mode, size, name⟩ := fields
      cases size with
      | none => cases h
      | some size =>
        dsimp only at h ⊢
        generalize parseU64 size = size at h ⊢
        cases size with
        | none => cases h
        | some size =>
          cases name with
          | none => cases h
          | some name =>
            dsimp only at h ⊢
            cases hvalid : validateReceivedName debug name with
            | error error =>
              rw [hvalid] at h
              cases h
            | ok _ =>
              rw [hvalid] at h
              rw [validateReceivedName_debug hvalid]
              exact h

theorem parseRecord_debug (h : parseRecord debug kind line = .ok record) :
    parseRecord debug' kind line = .ok record := by
  unfold parseRecord at h ⊢
  split at h
  · cases h
  · next herror =>
      rw [if_neg herror]
      split at h
      · next hkind =>
          rw [if_pos hkind]
          exact parseFileOrDirectoryRecord_debug h
      · next hkind =>
          rw [if_neg hkind]
          exact h

theorem mem_recordKinds (hkind : kind ∈ ([1, 2, 67, 68, 69, 84] : List UInt8))
    (h : parseRecord debug kind line = .ok record) : kind ∈ recordKinds := by
  have herror : ¬ (kind = 1 ∨ kind = 2) := by
    intro herror
    rw [parseRecord, if_pos herror] at h
    cases h
  rw [not_or] at herror
  rw [List.mem_cons, List.mem_cons] at hkind
  exact (hkind.resolve_left herror.1).resolve_left herror.2

theorem safeName_of_recordOf {text : List UInt8} (h : recordOf kind text = some record)
    (hname : record.name = some name) : SafeName name := by
  unfold recordOf at h
  split at h
  · cases h
  · split at h
    · next line _ =>
        cases hparsed : parseRecord id kind line with
        | error error =>
          rw [hparsed] at h
          cases h
        | ok parsed =>
          rw [hparsed] at h
          cases h
          exact safeName_of_parseRecord hparsed hname
    · cases h

end Names

/-! ## 4. What has been described -/

variable {remaining : Nat} {place : Option (List Str)}

variable {s s' : Stream} {entries : List Entry} {bytes data : List UInt8}

section Shape

variable {directory : List Str}

theorem Entry.append_nil (entry : Entry) : entry.append [] = entry := by
  cases entry with
  | directory place => rfl
  | file place size contents => rw [Entry.append, List.append_nil]

theorem Entry.append_append (entry : Entry) (bytes data : List UInt8) :
    (entry.append bytes).append data = entry.append (bytes ++ data) := by
  cases entry with
  | directory place => rfl
  | file place size contents => rw [Entry.append, Entry.append, Entry.append, List.append_assoc]

theorem appendLast_concat (entries : List Entry) (entry : Entry) (bytes : List UInt8) :
    appendLast (entries ++ [entry]) bytes = entries ++ [entry.append bytes] := by
  rw [appendLast, List.getLast?_concat, List.dropLast_concat]

theorem appendLast_nil (entries : List Entry) : appendLast entries [] = entries := by
  cases entries using List.reverseRecOn with
  | nil => rfl
  | append_singleton entries entry => rw [appendLast_concat, Entry.append_nil]

theorem appendLast_appendLast (entries : List Entry) (bytes data : List UInt8) :
    appendLast (appendLast entries bytes) data = appendLast entries (bytes ++ data) := by
  cases entries using List.reverseRecOn with
  | nil => rfl
  | append_singleton entries entry =>
    rw [appendLast_concat, appendLast_concat, appendLast_concat, Entry.append_append]

theorem length_appendLast (entries : List Entry) (bytes : List UInt8) :
    (appendLast entries bytes).length = entries.length := by
  cases entries using List.reverseRecOn with
  | nil => rfl
  | append_singleton entries entry => rw [appendLast_concat, List.length_append, List.length_append]; rfl

theorem place_appendLast (entries : List Entry) (bytes : List UInt8) :
    (appendLast entries bytes).map Entry.place = entries.map Entry.place := by
  cases entries using List.reverseRecOn with
  | nil => rfl
  | append_singleton entries entry =>
    rw [appendLast_concat, List.map_append, List.map_append]
    cases entry <;> rfl

/-- The directory in which the reader stands. -/
def Place.names : Place → List Str
  | .record directory | .line directory _ _ => directory.getD []
  | .contents directory _ | .status directory => directory
  | .finished => []

/-- How much of what has been announced has come. -/
def Described : Place → List Entry → Prop
  | .contents _ remaining, entries => 0 < remaining ∧ ∃ before place size contents,
      entries = before ++ [.file place size contents] ∧ contents.length + remaining = size ∧
        ∀ entry ∈ before, entry.Complete
  | _, entries => ∀ entry ∈ entries, entry.Complete

/-- What a reader keeps. -/
structure Shaped (s : Stream) : Prop where
  safe : ∀ name ∈ s.place.names, SafeName name
  contained : ∀ entry ∈ s.entries, entry.Contained
  described : Described s.place s.entries

theorem Shaped.complete (h : Shaped s) : ∀ entry ∈ s.entries.dropLast, entry.Complete := by
  obtain ⟨-, -, hdescribed⟩ := h
  obtain ⟨place, entries⟩ := s
  cases place with
  | contents directory remaining =>
    obtain ⟨-, before, place, size, contents, rfl, -, hbefore⟩ := hdescribed
    rwa [List.dropLast_concat]
  | record directory => exact fun entry hentry => hdescribed entry (List.dropLast_subset _ hentry)
  | line directory kind text =>
    exact fun entry hentry => hdescribed entry (List.dropLast_subset _ hentry)
  | status directory => exact fun entry hentry => hdescribed entry (List.dropLast_subset _ hentry)
  | finished => exact fun entry hentry => hdescribed entry (List.dropLast_subset _ hentry)

theorem Entry.Complete.fits {entry : Entry} (h : entry.Complete) : entry.Fits := by
  cases entry with
  | directory place => trivial
  | file place size contents => exact Nat.le_of_eq h

theorem Shaped.fits (h : Shaped s) : ∀ entry ∈ s.entries, entry.Fits := by
  obtain ⟨-, -, hdescribed⟩ := h
  obtain ⟨place, entries⟩ := s
  cases place with
  | contents directory remaining =>
    obtain ⟨-, before, place, size, contents, rfl, rfl, hbefore⟩ := hdescribed
    intro entry hentry
    obtain hentry | hentry := List.mem_append.mp hentry
    · exact (hbefore entry hentry).fits
    · rw [List.mem_singleton] at hentry
      subst hentry
      exact Nat.le_add_right _ _
  | record directory => exact fun entry hentry => (hdescribed entry hentry).fits
  | line directory kind text => exact fun entry hentry => (hdescribed entry hentry).fits
  | status directory => exact fun entry hentry => (hdescribed entry hentry).fits
  | finished => exact fun entry hentry => (hdescribed entry hentry).fits

theorem described_file {before : List Entry} {place : List Str} {contents : List UInt8} {size : Nat}
    (hsize : contents.length + remaining = size) (hbefore : ∀ entry ∈ before, entry.Complete) :
    Described (.file directory remaining) (before ++ [.file place size contents]) := by
  unfold Place.file
  split
  · next hzero =>
      intro entry hentry
      obtain hentry | hentry := List.mem_append.mp hentry
      · exact hbefore entry hentry
      · rw [List.mem_singleton] at hentry
        subst hentry
        rw [hzero] at hsize
        exact hsize
  · next hpos => exact ⟨Nat.pos_of_ne_zero hpos, before, place, size, contents, rfl, hsize, hbefore⟩

@[simp] theorem names_file (remaining : Nat) :
    (Place.file directory remaining).names = directory := by
  unfold Place.file
  split <;> rfl

theorem safe_concat {name : Str} (hsafe : ∀ name ∈ directory, SafeName name)
    (hname : SafeName name) : ∀ part ∈ directory ++ [name], SafeName part := by
  intro part hpart
  obtain hpart | hpart := List.mem_append.mp hpart
  · exact hsafe part hpart
  · exact List.mem_singleton.mp hpart ▸ hname

theorem contained_concat {entry : Entry} {name : Str}
    (hentries : ∀ entry ∈ entries, entry.Contained) (hplace : entry.place = directory ++ [name])
    (hsafe : ∀ name ∈ directory, SafeName name)
    (hname : SafeName name) : ∀ other ∈ entries ++ [entry], other.Contained := by
  intro other hother
  obtain hother | hother := List.mem_append.mp hother
  · exact hentries other hother
  · rw [List.mem_singleton] at hother
    rw [hother]
    refine ⟨?_, ?_⟩
    · rw [hplace]
      exact List.append_ne_nil_of_right_ne_nil _ nofun
    · rw [hplace]
      exact safe_concat hsafe hname

theorem shaped_recorded {record : ScpRecord} {kind : UInt8}
    {text : List UInt8} (hs : Shaped ⟨.line place kind text, entries⟩)
    (hname : ∀ name, record.name = some name → SafeName name)
    (h : recorded entries place record = some s') : Shaped s' := by
  obtain ⟨hsafe, hcontained, hcomplete⟩ := hs
  have hdescribed : ∀ entry ∈ entries, entry.Complete := hcomplete
  cases place with
  | none =>
    cases record with
    | directory mode name =>
      cases h
      exact ⟨nofun, hcontained, hdescribed⟩
    | file mode size name => cases h
    | endDirectory => cases h
    | times => cases h
  | some directory =>
    have hsafe : ∀ name ∈ directory, SafeName name := hsafe
    cases record with
    | times =>
      cases h
      exact ⟨hsafe, hcontained, hdescribed⟩
    | endDirectory =>
      change (if directory = [] then _ else _) = _ at h
      split at h
      · cases h
        exact ⟨nofun, hcontained, hdescribed⟩
      · cases h
        exact ⟨fun name hmem => hsafe name (List.dropLast_subset _ hmem), hcontained, hdescribed⟩
    | directory mode name =>
      cases h
      refine ⟨safe_concat hsafe (hname name rfl),
        contained_concat hcontained rfl hsafe (hname name rfl), fun entry hentry => ?_⟩
      obtain hentry | hentry := List.mem_append.mp hentry
      · exact hdescribed entry hentry
      · exact List.mem_singleton.mp hentry ▸ trivial
    | file mode size name =>
      cases h
      refine ⟨?_, contained_concat hcontained rfl hsafe (hname name rfl),
        described_file (Nat.zero_add size) hdescribed⟩
      rwa [names_file]

theorem shaped_next {byte : UInt8} (h : s.next byte = some s') (hs : Shaped s) : Shaped s' := by
  obtain ⟨place, entries⟩ := s
  cases place with
  | record directory =>
    unfold Stream.next at h
    dsimp only at h
    split at h
    · cases h
      exact ⟨hs.safe, hs.contained, hs.described⟩
    · cases h
  | line directory kind text =>
    unfold Stream.next at h
    dsimp only at h
    split at h
    · obtain ⟨record, hrecord, h⟩ := Option.bind_eq_some_iff.mp h
      exact shaped_recorded hs (fun name hname => safeName_of_recordOf hrecord hname) h
    · cases h
      exact ⟨hs.safe, hs.contained, hs.described⟩
  | contents directory remaining =>
    cases h
    obtain ⟨hsafe, hcontained, hpos, before, place, size, contents, rfl, hsize, hbefore⟩ := hs
    refine ⟨?_, ?_, ?_⟩
    · rwa [names_file]
    · intro entry hentry
      rw [appendLast_concat] at hentry
      obtain hentry | hentry := List.mem_append.mp hentry
      · exact hcontained entry (List.mem_append_left _ hentry)
      · rw [List.mem_singleton] at hentry
        subst hentry
        exact hcontained (.file place size contents) (List.mem_append_right _ (List.mem_singleton_self _))
    · rw [appendLast_concat]
      refine described_file ?_ hbefore
      rw [List.length_append, List.length_singleton]
      omega
  | status directory =>
    unfold Stream.next at h
    dsimp only at h
    split at h
    · cases h
      exact ⟨hs.safe, hs.contained, hs.described⟩
    · cases h
  | finished => cases h

/-- Whatever the bytes, the entries are contained and no file is longer than announced. -/
theorem shaped_of_reads (h : Reads bytes s) : Shaped s :=
  have hstart : ∀ entry ∈ ([] : List Entry), entry.Complete := nofun
  have hinit : Shaped ⟨.record none, []⟩ := ⟨List.forall_mem_nil _, List.forall_mem_nil _, hstart⟩
  Runs.invariant (fun hnext hs => shaped_next hnext hs) hinit h

end Shape

/-! ## 5. Records and files as a whole -/

section Whole

variable {text : List UInt8}

theorem reads_append (h : Reads bytes s) (hdata : Runs.run Stream.next s data = some s') :
    Reads (bytes ++ data) s' := by
  rw [Reads, Runs.run_append, h]
  exact hdata

theorem reads_line {kind : UInt8} {record : ScpRecord}
    (h : Reads bytes ⟨.record place, entries⟩) (hkind : kind ∈ recordKinds) (htext : 10 ∉ text)
    (hrecord : recordOf kind text = some record) (hnext : recorded entries place record = some s') :
    Reads (bytes ++ kind :: text ++ [10]) s' := by
  have hline : ∀ rest before, 10 ∉ rest →
      Runs.run Stream.next ⟨.line place kind before, entries⟩ rest =
        some ⟨.line place kind (before ++ rest), entries⟩ := by
    intro rest
    induction rest with
    | nil => intro before _; rw [List.append_nil]; rfl
    | cons byte rest ih =>
      intro before hrest
      rw [List.mem_cons, not_or] at hrest
      obtain ⟨hbyte, hrest⟩ := hrest
      rw [Runs.run_cons, Stream.next]
      dsimp only
      rw [if_neg (Ne.symm hbyte)]
      exact (ih _ hrest).trans (by rw [List.append_assoc]; rfl)
  have hbegin : Runs.run Stream.next ⟨.record place, entries⟩ [kind] =
      some ⟨.line place kind [], entries⟩ := by
    rw [Runs.run_cons, Stream.next]
    dsimp only
    rw [if_pos hkind]
    rfl
  rw [List.append_assoc, ← List.singleton_append]
  refine reads_append h ?_
  rw [List.append_assoc, Runs.run_append, hbegin, Option.bind_some, Runs.run_append, hline text [] htext,
    Option.bind_some, Runs.run_cons, Stream.next]
  dsimp only
  rw [if_pos rfl, List.nil_append, hrecord, Option.bind_some, hnext]
  rfl

theorem reads_contents {directory : List Str}
    (h : Reads bytes ⟨.file directory remaining, entries⟩) (hdata : data.length ≤ remaining) :
    Reads (bytes ++ data) ⟨.file directory (remaining - data.length), appendLast entries data⟩ := by
  induction data generalizing bytes remaining entries with
  | nil => rwa [List.append_nil, appendLast_nil]
  | cons byte data ih =>
    rw [List.length_cons] at hdata
    have hplace : Place.file directory remaining = .contents directory remaining :=
      if_neg (by omega)
    have hbyte : Reads (bytes ++ [byte]) ⟨.file directory (remaining - 1), appendLast entries [byte]⟩ := by
      rw [hplace] at h
      exact reads_append h rfl
    have hrest := ih hbyte (by omega)
    rw [appendLast_appendLast, List.append_assoc] at hrest
    rw [List.length_cons, Nat.add_comm, Nat.sub_add_eq]
    exact hrest

theorem reads_status {directory : List Str} (h : Reads bytes ⟨.status directory, entries⟩) :
    Reads (bytes ++ [0]) ⟨.record (some directory), entries⟩ :=
  reads_append h rfl

end Whole

end Hapcli.Sftp
