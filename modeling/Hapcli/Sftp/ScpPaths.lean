/-
  Subject:   The paths of an SCP transfer (`scp/paths.rs`, `path_utils.rs`): what is accepted, and where
             the temporary and the backup paths lie that are made beside a remote path.

  A path is a text, read as on Unix. A relative path is counted from a directory of the server's
  choice, so that it never lies where an absolute one does.

  * **`directoryOf_remoteGeneratedSibling`** -- where a generated path lies;
  * **`staged_paths_iff`** -- which of them are handled as they should be.
-/
import Hapcli.Rust.Paths
import Hapcli.Ssh.PoolKeys
import Mathlib.Data.List.TakeWhile

namespace Hapcli.Sftp

open Hapcli.Rust
open Hapcli.Ssh (IsUuid)

/-! ## 1. Checks -/

/-- `SftpError`, as far as an SCP transfer meets it. -/
inductive ScpError where
  | ioError (message : Str)
  | channelError (message : Str)
  | protocolError (message : Str)
  | invalidPath (message : Str)
  | transferCancelled
  | transferError (message : Str)
  deriving DecidableEq

/-- A `Uuid` as it is written. -/
def Uuid := { text : Str // IsUuid text }

section Checks

-- how `{:?}` writes a text
variable (debug : Str → Str)

def validateReceivedName (name : Str) : Except ScpError Unit :=
  if name = [] ∨ name = ['.'] ∨ name = ['.', '.'] ∨
      name.any (· ∈ ['/', '\\', '\n', '\r', '\x00']) = true then
    .error (.protocolError ("Unsafe SCP file name: ".toList ++ debug name))
  else .ok ()

def validateRemotePath (path : Str) : Except ScpError Unit :=
  if trim path = [] ∨ path.any (· ∈ ['\n', '\r', '\x00']) = true then
    .error (.invalidPath "Remote SCP path is empty or contains control characters".toList)
  else .ok ()

def safeLocalFileName (path : Str) : Except ScpError Str := do
  match pathFileName path with
  | none => .error (.invalidPath ("Path has no UTF-8 file name: ".toList ++ path))
  | some name =>
    validateReceivedName debug name
    return name

end Checks

/-! ## 2. Paths on the server -/

/-- `replace('\\', "/")`. -/
def forwardSlashes (s : Str) : Str := s.map fun c => if c = '\\' then '/' else c

def normalizeRemotePath (path : Str) : Str :=
  let trimmed := trim path
  if trimmed = [] ∨ trimmed = ['/'] then ['/']
  else
    let normalized := replacePairs (forwardSlashes trimmed)
    if normalized.head? = some '/' then normalized else '/' :: normalized

def remoteParentPath (path : Str) : Str :=
  let normalized := normalizeRemotePath path
  if normalized = ['/'] then normalized
  else
    let parts := (names (trimEndMatches '/' normalized)).dropLast
    if parts = [] then ['/'] else '/' :: joinSlash parts

/-- The name of a generated sibling. -/
def temporaryName (uuid : Uuid) (name suffix : Str) : Str :=
  '.' :: name ++ ".hapcli-".toList ++ uuid.1 ++ '.' :: suffix

def remoteGeneratedSibling (debug : Str → Str) (uuid : Uuid) (remotePath suffix : Str) :
    Except ScpError Str := do
  let name ← safeLocalFileName debug remotePath
  let parent := remoteParentPath remotePath
  let temporary := temporaryName uuid name suffix
  return if parent = ['/'] then '/' :: temporary
    else if parent = ['.'] then temporary
    else trimEndMatches '/' parent ++ '/' :: temporary

def remoteTemporaryPath (debug : Str → Str) (uuid : Uuid) (remotePath : Str) : Except ScpError Str :=
  remoteGeneratedSibling debug uuid remotePath "part".toList

def remoteTemporaryDirectoryPath (debug : Str → Str) (uuid : Uuid) (remotePath : Str) :
    Except ScpError Str :=
  remoteGeneratedSibling debug uuid remotePath "part-dir".toList

def remoteBackupDirectoryPath (debug : Str → Str) (uuid : Uuid) (remotePath : Str) :
    Except ScpError Str :=
  remoteGeneratedSibling debug uuid remotePath "backup-dir".toList

/-! ## 3. Where a generated path lies -/

variable {debug : Str → Str} {name path : Str}

theorem validateReceivedName_ok (h : validateReceivedName debug name = .ok ()) :
    name ≠ [] ∧ name ≠ ['.'] ∧ name ≠ ['.', '.'] ∧
      ∀ c ∈ name, c ∉ ['/', '\\', '\n', '\r', '\x00'] := by
  unfold validateReceivedName at h
  split at h
  · cases h
  · next hsafe =>
      rw [not_or, not_or, not_or, List.any_eq_true] at hsafe
      obtain ⟨hne, hdot, hdots, hchars⟩ := hsafe
      exact ⟨hne, hdot, hdots, fun c hc hmem => hchars ⟨c, hc, decide_eq_true hmem⟩⟩

theorem safeLocalFileName_ok (h : safeLocalFileName debug path = .ok name) :
    pathFileName path = some name ∧ validateReceivedName debug name = .ok () := by
  unfold safeLocalFileName at h
  split at h
  · cases h
  · next name' hname =>
      cases hvalid : validateReceivedName debug name' with
      | error error =>
        rw [hvalid] at h
        cases h
      | ok value =>
        rw [hvalid] at h
        cases h
        exact ⟨hname, hvalid⟩

/-- The names of a path, without those that lead nowhere. -/
def namedParts (path : Str) : List Str := (names path).filter (· ≠ ['.'])

theorem pathFileName_eq (path : Str) :
    pathFileName path =
      match (namedParts path).getLast? with
      | some name => if name = ['.', '.'] then none else some name
      | none => none := by
  have hfilter : (path.splitOnP (· == '/')).filter (fun c => c ≠ [] ∧ c ≠ ['.']) = namedParts path := by
    rw [namedParts, names, List.filter_filter, slashPieces]
    refine List.filter_congr fun c _ => ?_
    rw [decide_not, Bool.decide_and, decide_not, Bool.and_comm, decide_not]
  rw [pathFileName, hfilter]
  rfl

theorem names_normalizeRemotePath (path : Str) :
    names (normalizeRemotePath path) = names (forwardSlashes (trim path)) := by
  unfold normalizeRemotePath
  dsimp only
  split
  · next hroot =>
      obtain hroot | hroot := hroot <;> rw [hroot] <;> rfl
  · split
    · rw [names_replacePairs]
    · rw [names_slash, names_replacePairs]

theorem isAbsolutePath_normalizeRemotePath (path : Str) :
    isAbsolutePath (normalizeRemotePath path) = true := by
  unfold normalizeRemotePath
  dsimp only
  split
  · rfl
  · split
    · next hhead => rw [isAbsolutePath, hhead, beq_self_eq_true]
    · rfl

theorem remoteParentPath_spec (path : Str) :
    isAbsolutePath (remoteParentPath path) = true ∧
      names (remoteParentPath path) = (names (forwardSlashes (trim path))).dropLast := by
  have hnames := names_normalizeRemotePath path
  unfold remoteParentPath
  dsimp only
  split
  · next hroot =>
      rw [hroot] at hnames ⊢
      rw [← hnames]
      exact ⟨rfl, rfl⟩
  · rw [names_trimEndMatches, hnames]
    split
    · next hparts =>
        rw [hparts]
        exact ⟨rfl, rfl⟩
    · refine ⟨rfl, ?_⟩
      rw [names_slash]
      refine names_joinSlash fun part hpart => ?_
      obtain ⟨hne, hplain, _⟩ := mem_names (List.mem_of_mem_dropLast hpart)
      exact ⟨hne, hplain⟩

theorem isAbsolutePath_trimEnd (s t : Str) (h : isAbsolutePath s = true) :
    isAbsolutePath (trimEndMatches '/' s ++ '/' :: t) = true := by
  have hbegins : trimEndMatches '/' s <+: s := by
    rw [← List.reverse_suffix, trimEndMatches, List.reverse_reverse]
    exact List.dropWhile_suffix _
  cases htrimmed : trimEndMatches '/' s with
  | nil => rfl
  | cons c front =>
    rw [htrimmed] at hbegins
    obtain ⟨back, rfl⟩ := hbegins
    exact h

section Sibling

variable {debug : Str → Str} {uuid : Uuid} {path name suffix : Str}

theorem temporaryName_spec (hname : validateReceivedName debug name = .ok ())
    (hsuffix : Plain suffix) :
    Plain (temporaryName uuid name suffix) ∧ temporaryName uuid name suffix ≠ [] ∧
      temporaryName uuid name suffix ≠ ['.'] ∧ temporaryName uuid name suffix ≠ ['.', '.'] := by
  obtain ⟨hne, -, -, hchars⟩ := validateReceivedName_ok hname
  have hlength : 2 < (temporaryName uuid name suffix).length := by
    simp only [temporaryName, List.length_append, List.length_cons]
    have := List.length_pos_of_ne_nil hne
    omega
  refine ⟨fun hmem => ?_, nofun, fun heq => ?_, fun heq => ?_⟩
  · rw [temporaryName, List.mem_append, List.mem_append, List.mem_append] at hmem
    obtain ((hmem | hmem) | hmem) | hmem := hmem
    · obtain hmem | hmem := List.mem_cons.mp hmem
      · exact absurd hmem (by decide)
      · exact hchars _ hmem List.mem_cons_self
    · exact absurd hmem (by decide)
    · exact absurd (uuid.2.mem hmem) (by decide)
    · obtain hmem | hmem := List.mem_cons.mp hmem
      · exact absurd hmem (by decide)
      · exact hsuffix hmem
  · rw [heq] at hlength
    exact absurd hlength (by decide)
  · rw [heq] at hlength
    exact absurd hlength (by decide)

/-- A generated path lies in the directory of the normalised path's parent. -/
theorem directoryOf_remoteGeneratedSibling (hname : safeLocalFileName debug path = .ok name)
    (hsuffix : Plain suffix) : ∃ staged,
      remoteGeneratedSibling debug uuid path suffix = .ok staged ∧
      pathFileName staged = some (temporaryName uuid name suffix) ∧
      directoryOf staged =
        (true, ((names (forwardSlashes (trim path))).dropLast).filter (· ≠ ['.'])) := by
  obtain ⟨hplain, hne, hdot, hdots⟩ :=
    @temporaryName_spec debug uuid name suffix (safeLocalFileName_ok hname).2 hsuffix
  obtain ⟨habsolute, hparent⟩ := remoteParentPath_spec path
  have hstaged : ∃ staged, remoteGeneratedSibling debug uuid path suffix = .ok staged ∧
      isAbsolutePath staged = true ∧
      names staged = (names (forwardSlashes (trim path))).dropLast ++ [temporaryName uuid name suffix] := by
    have htemporary : names (temporaryName uuid name suffix) = [temporaryName uuid name suffix] := by
      rw [names_plain hplain, if_neg hne]
    refine ⟨_, by rw [remoteGeneratedSibling, hname]; rfl, ?_, ?_⟩
    · split
      · rfl
      split
      · next hcurrent =>
          rw [hcurrent] at habsolute
          cases habsolute
      · exact isAbsolutePath_trimEnd _ _ habsolute
    · split
      · next hroot =>
          rw [hroot] at hparent
          rw [← hparent, names_slash, htemporary]
          rfl
      split
      · next hcurrent =>
          rw [hcurrent] at habsolute
          cases habsolute
      · rw [names_append_slash, names_trimEndMatches, hparent, htemporary]
  obtain ⟨staged, hresult, hroot, hnames⟩ := hstaged
  have hparts : namedParts staged =
      ((names (forwardSlashes (trim path))).dropLast).filter (· ≠ ['.']) ++
        [temporaryName uuid name suffix] := by
    rw [namedParts, hnames, List.filter_append]
    congr 1
    simp [hdot]
  refine ⟨staged, hresult, ?_, ?_⟩
  · rw [pathFileName_eq, hparts, List.getLast?_concat]
    exact if_neg hdots
  · rw [directoryOf, hroot, ← namedParts, hparts, List.dropLast_concat]

end Sibling

/-! ## 4. The paths beside which it lies -/

/-- What has to be said of a path so that generated paths lie beside it: it is counted from the
    root, it has no backslash in it, and trimming takes its last name and no other from it (or a `.`
    before it). -/
def StaysInDirectory (path : Str) : Prop :=
  isAbsolutePath path = true ∧ '\\' ∉ path ∧
    if lastPiece (· == '/') path ≠ [] ∧ (lastPiece (· == '/') path).all isWhitespace = true then
      (names path).dropLast.getLast? = none ∨ (names path).dropLast.getLast? = some ['.']
    else (names path).getLast? ≠ some ['.']

instance (path : Str) : Decidable (StaysInDirectory path) :=
  inferInstanceAs (Decidable (_ ∧ _ ∧ _))

theorem trim_of_slash {front back : Str} (h : isAbsolutePath (front ++ '/' :: back) = true) :
    trim (front ++ '/' :: back) = front ++ '/' :: (back.reverse.dropWhile isWhitespace).reverse := by
  have hstart : (front ++ '/' :: back).dropWhile isWhitespace = front ++ '/' :: back := by
    cases front with
    | nil => rfl
    | cons c front =>
      have hc : c = '/' := by simpa [isAbsolutePath] using h
      rw [hc]
      rfl
  rw [trim, trimMatches, hstart, List.reverse_append, List.reverse_cons, List.append_assoc,
    List.dropWhile_append]
  split
  · next hempty =>
      rw [List.isEmpty_iff.mp hempty]
      have hslash : (['/'] ++ front.reverse).dropWhile isWhitespace = ['/'] ++ front.reverse := rfl
      rw [hslash]
      simp
  · simp

variable {s : Str}

theorem forwardSlashes_of_not_mem (h : '\\' ∉ s) : forwardSlashes s = s := by
  unfold forwardSlashes
  conv_rhs => rw [← List.map_id s]
  refine List.map_congr_left fun c hc => if_neg ?_
  rintro rfl
  exact h hc

theorem backslash_not_mem_forwardSlashes (s : Str) : '\\' ∉ forwardSlashes s := by
  intro hmem
  obtain ⟨c, -, hc⟩ := List.mem_map.mp hmem
  split at hc
  · cases hc
  · next hne => exact hne hc

theorem lastPiece_slash (front : Str) {back : Str} (h : Plain back) :
    lastPiece (· == '/') (front ++ '/' :: back) = back := by
  have hpieces := slashPieces_append_slash front back
  rw [slashPieces_plain h, slashPieces] at hpieces
  rw [lastPiece, hpieces, List.getLastD_concat]

section Parts

variable {parts : List Str} {dot : Str}

theorem dropLast_ne {α : Type} {l : List α} (h : l ≠ []) : l ≠ l.dropLast := by
  intro heq
  have hlength := congrArg List.length heq
  have hpos := List.length_pos_of_ne_nil h
  rw [List.length_dropLast] at hlength
  omega

theorem filter_dropLast_eq_filter :
    parts.dropLast.filter (· ≠ dot) = parts.filter (· ≠ dot) ↔
      parts.getLast? = none ∨ parts.getLast? = some dot := by
  obtain rfl | ⟨init, last, rfl⟩ := List.eq_nil_or_concat parts
  · simp
  · rw [List.concat_eq_append, List.dropLast_concat, List.filter_append, List.getLast?_concat]
    by_cases hlast : last = dot <;> simp [hlast]

theorem filter_dropLast_eq_dropLast_filter (h : parts.filter (· ≠ dot) ≠ []) :
    parts.dropLast.filter (· ≠ dot) = (parts.filter (· ≠ dot)).dropLast ↔
      parts.getLast? ≠ some dot := by
  obtain rfl | ⟨init, last, rfl⟩ := List.eq_nil_or_concat parts
  · exact absurd rfl h
  · rw [List.concat_eq_append] at *
    rw [List.dropLast_concat, List.getLast?_concat, List.filter_append] at *
    by_cases hlast : last = dot
    · have hnone : [last].filter (· ≠ dot) = [] := by simp [hlast]
      rw [hnone, List.append_nil] at h ⊢
      exact iff_of_false (dropLast_ne h) fun hne => hne (congrArg some hlast)
    · simp [hlast]

end Parts

section

variable (hlast : (namedParts path).getLast? = some name) (hname : '\\' ∉ name)

include hlast hname

/-- A backslash outside the last name keeps the generated path out of the directory. -/
theorem parentNames_ne_of_backslash (hpath : '\\' ∈ path) :
    ((names (forwardSlashes (trim path))).dropLast).filter (· ≠ ['.']) ≠ (namedParts path).dropLast := by
  intro heq
  obtain ⟨part, hpart, hmem⟩ := exists_mem_names hpath (by decide)
  have hdot : part ≠ ['.'] := fun hdot => absurd (hdot ▸ hmem) (by decide)
  have hnamed : part ∈ namedParts path := List.mem_filter.mpr ⟨hpart, decide_eq_true hdot⟩
  rw [← List.dropLast_append_getLast? _ hlast, List.mem_append, ← heq] at hnamed
  obtain hnamed | hnamed := hnamed
  · obtain ⟨-, -, hchars⟩ := mem_names (List.mem_of_mem_dropLast (List.mem_of_mem_filter hnamed))
    exact backslash_not_mem_forwardSlashes _ (hchars _ hmem)
  · exact hname (List.mem_singleton.mp hnamed ▸ hmem)

theorem parentNames_iff :
    (true, ((names (forwardSlashes (trim path))).dropLast).filter (· ≠ ['.'])) = directoryOf path ↔
      StaysInDirectory path := by
  rw [directoryOf, Prod.mk.injEq, ← namedParts, StaysInDirectory, eq_comm]
  refine and_congr_right fun habsolute => ?_
  by_cases hback : '\\' ∈ path
  · exact iff_of_false (parentNames_ne_of_backslash hlast hname hback) fun h => h.1 hback
  have hparts : (names path).filter (· ≠ ['.']) ≠ [] := by
    intro hnone
    rw [namedParts, hnone] at hlast
    cases hlast
  obtain hplain | ⟨front, back, rfl, hplain⟩ := plain_or_split path
  · refine absurd ?_ hplain
    exact List.mem_of_mem_head? (by simpa [isAbsolutePath] using habsolute)
  · have htrim := trim_of_slash habsolute
    have hsub : (back.reverse.dropWhile isWhitespace).reverse.Sublist back := by
      have hreverse := (List.dropWhile_sublist isWhitespace (l := back.reverse)).reverse
      rwa [List.reverse_reverse] at hreverse
    have hslashes : forwardSlashes (trim (front ++ '/' :: back)) = trim (front ++ '/' :: back) := by
      refine forwardSlashes_of_not_mem fun hmem => hback ?_
      rw [htrim] at hmem
      exact ((hsub.cons_cons '/').append_left front).subset hmem
    have htrimmed : Plain (back.reverse.dropWhile isWhitespace).reverse := fun hmem =>
      hplain (hsub.subset hmem)
    rw [names_append_slash] at hparts
    rw [hslashes, htrim, lastPiece_slash front hplain, namedParts, names_append_slash,
      names_append_slash, and_iff_right hback]
    by_cases hempty : back = []
    · rw [if_neg fun h => h.1 hempty]
      subst hempty
      rw [names_nil, List.append_nil] at hparts
      rw [List.reverse_nil, List.dropWhile_nil, List.reverse_nil, names_nil, List.append_nil]
      exact filter_dropLast_eq_dropLast_filter hparts
    · have hback' : names back = [back] := by rw [names_plain hplain, if_neg hempty]
      rw [hback'] at hparts ⊢
      by_cases hblank : back.all isWhitespace = true
      · -- the last name is white space, and the trimmed path ends with the slash before it
        have hdrop : back.reverse.dropWhile isWhitespace = [] := by
          rw [List.dropWhile_eq_nil_iff]
          exact fun c hc => List.all_eq_true.mp hblank c (List.mem_reverse.mp hc)
        have hdot : [back].filter (· ≠ ['.']) = [back] := by
          have hne : back ≠ ['.'] := by
            rintro rfl
            cases hblank
          simp [hne]
        rw [if_pos ⟨hempty, hblank⟩, hdrop, List.reverse_nil, names_nil, List.append_nil,
          List.filter_append, hdot, List.dropLast_concat, List.dropLast_concat]
        exact filter_dropLast_eq_filter
      · have hdrop : (back.reverse.dropWhile isWhitespace).reverse ≠ [] := by
          rw [ne_eq, List.reverse_eq_nil_iff, List.dropWhile_eq_nil_iff]
          intro hall
          exact hblank (List.all_eq_true.mpr fun c hc => hall c (List.mem_reverse.mpr hc))
        rw [if_neg fun h => hblank h.2, names_plain htrimmed, if_neg hdrop, List.dropLast_concat]
        have hlast' := filter_dropLast_eq_dropLast_filter hparts
        rwa [List.dropLast_concat] at hlast'

end

/-! ## 5. Normalised paths -/

/-- There is something between any two slashes, and after the last one, unless the path is the root. -/
def NoEmptyComponent (path : Str) : Prop := path = ['/'] ∨ [] ∉ (slashPieces path).tail

/-- No three slashes or backslashes stand in a row, and none at the end of more than these. -/
def WellSeparated (path : Str) : Prop :=
  ¬ ['/', '/', '/'] <:+: forwardSlashes (trim path) ∧
    ((forwardSlashes (trim path)).getLast? = some '/' →
      forwardSlashes (trim path) = ['/'] ∨ forwardSlashes (trim path) = ['/', '/'])

instance (path : Str) : Decidable (WellSeparated path) :=
  inferInstanceAs (Decidable (_ ∧ _))

theorem replacePairs_eq_nil : replacePairs s = [] ↔ s = [] := by
  fun_cases replacePairs s <;> simp

theorem replacePairs_eq_root : replacePairs s = ['/'] ↔ s = ['/'] ∨ s = ['/', '/'] := by
  fun_cases replacePairs s with
  | case1 rest => simp [replacePairs_eq_nil]
  | case2 c rest hpair =>
    simp only [List.cons.injEq, replacePairs_eq_nil]
    refine ⟨.inl, fun h => h.resolve_right fun heq => ?_⟩
    exact hpair [] heq.1 heq.2
  | case3 => simp

theorem normalizeRemotePath_spec (h : ¬ (trim path = [] ∨ trim path = ['/'])) :
    (['/', '/'] <:+: normalizeRemotePath path ↔
        ['/', '/', '/'] <:+: forwardSlashes (trim path)) ∧
      (normalizeRemotePath path).getLast? = (forwardSlashes (trim path)).getLast? ∧
      (normalizeRemotePath path = ['/'] ↔
        forwardSlashes (trim path) = ['/'] ∨ forwardSlashes (trim path) = ['/', '/']) ∧
      ∀ c ∈ normalizeRemotePath path, c = '/' ∨ c ∈ forwardSlashes (trim path) := by
  have hne : forwardSlashes (trim path) ≠ [] := fun hnil => h (.inl (List.map_eq_nil_iff.mp hnil))
  unfold normalizeRemotePath
  dsimp only
  rw [if_neg h]
  generalize forwardSlashes (trim path) = t at hne
  split
  · exact ⟨pair_replacePairs_iff t, getLast?_replacePairs t, replacePairs_eq_root,
      fun c hc => .inr (mem_of_mem_replacePairs hc)⟩
  · next hhead =>
      rw [head?_replacePairs] at hhead
      refine ⟨?_, ?_, ?_, fun c hc => ?_⟩
      · rw [pair_cons_slash, head?_replacePairs, pair_replacePairs_iff]
        exact ⟨fun h => h.resolve_left hhead, .inr⟩
      · rw [List.getLast?_cons, getLast?_replacePairs]
        obtain ⟨last, hlast⟩ := Option.ne_none_iff_exists'.mp (mt List.getLast?_eq_none_iff.mp hne)
        rw [hlast]
        rfl
      · refine iff_of_false (fun heq => hne ((replacePairs_eq_nil).mp (List.cons.inj heq).2)) ?_
        rintro (rfl | rfl) <;> exact hhead rfl
      · exact (List.mem_cons.mp hc).imp_right mem_of_mem_replacePairs

/-- A normalised path has no empty component just where it was well separated. -/
theorem noEmptyComponent_normalize (path : Str) :
    NoEmptyComponent (normalizeRemotePath path) ↔ WellSeparated path := by
  by_cases h : trim path = [] ∨ trim path = ['/']
  · have hroot : normalizeRemotePath path = ['/'] := if_pos h
    refine iff_of_true (.inl hroot) ?_
    unfold WellSeparated
    obtain h | h := h <;> rw [h] <;> decide
  · obtain ⟨hpair, hlast, hroot, -⟩ := normalizeRemotePath_spec h
    have hshort : forwardSlashes (trim path) = ['/'] ∨ forwardSlashes (trim path) = ['/', '/'] →
        ¬ ['/', '/', '/'] <:+: forwardSlashes (trim path) := by
      intro h
      obtain h | h := h <;> rw [h] <;> decide
    rw [NoEmptyComponent, mem_tail_pieces_iff, hpair, hlast, hroot, WellSeparated]
    tauto

theorem trim_eq_self (h : isAbsolutePath s = true)
    (hlast : ∀ c, s.getLast? = some c → isWhitespace c = false) : trim s = s := by
  have hstart : s.dropWhile isWhitespace = s := by
    cases s with
    | nil => rfl
    | cons c s =>
      have hc : c = '/' := by simpa [isAbsolutePath] using h
      rw [hc]
      rfl
  rw [trim, trimMatches, hstart]
  cases hreverse : s.reverse with
  | nil => rw [List.reverse_eq_nil_iff.mp hreverse]; rfl
  | cons c rest =>
    have hc : isWhitespace c = false := hlast c (by
      rw [← List.head?_reverse, hreverse, List.head?_cons])
    rw [List.dropWhile_cons, hc, if_neg Bool.false_ne_true, ← hreverse, List.reverse_reverse]

theorem getLast?_trim {c : Char} (h : (trim s).getLast? = some c) : isWhitespace c = false := by
  rw [trim, trimMatches, List.getLast?_reverse] at h
  have hhead := List.head?_dropWhile_not isWhitespace (s.dropWhile isWhitespace).reverse
  rw [h] at hhead
  exact hhead

theorem normalize_idempotent (h : NoEmptyComponent (normalizeRemotePath path)) :
    normalizeRemotePath (normalizeRemotePath path) = normalizeRemotePath path := by
  by_cases hroot : normalizeRemotePath path = ['/']
  · rw [hroot]
    rfl
  have htrimmed : ¬ (trim path = [] ∨ trim path = ['/']) := fun htrimmed => hroot (if_pos htrimmed)
  obtain ⟨-, hlast, -, hchars⟩ := normalizeRemotePath_spec htrimmed
  have habsolute := isAbsolutePath_normalizeRemotePath path
  have hpair : ¬ ['/', '/'] <:+: normalizeRemotePath path := fun hpair =>
    h.resolve_left hroot ((mem_tail_pieces_iff _).mpr (.inl hpair))
  have hslashes : forwardSlashes (normalizeRemotePath path) = normalizeRemotePath path := by
    refine forwardSlashes_of_not_mem fun hmem => ?_
    obtain hslash | hmem := hchars _ hmem
    · cases hslash
    · exact backslash_not_mem_forwardSlashes _ hmem
  have htrim : trim (normalizeRemotePath path) = normalizeRemotePath path := by
    refine trim_eq_self habsolute fun c hc => ?_
    rw [hlast, forwardSlashes, List.getLast?_map, Option.map_eq_some_iff] at hc
    obtain ⟨d, hd, rfl⟩ := hc
    split
    · rfl
    · exact getLast?_trim hd
  have hne : ¬ (normalizeRemotePath path = [] ∨ normalizeRemotePath path = ['/']) := by
    rintro (hnil | hroot')
    · rw [hnil] at habsolute
      cases habsolute
    · exact hroot hroot'
  generalize normalizeRemotePath path = n at *
  unfold normalizeRemotePath
  dsimp only
  rw [htrim, if_neg hne, hslashes, replacePairs_of_no_pair hpair,
    if_pos (by simpa [isAbsolutePath] using habsolute)]

/-! ## 6. Which paths are handled as they should be -/

/-- What `validate_remote_path` and `safe_local_file_name` accept. -/
def Accepted (debug : Str → Str) (path : Str) : Prop :=
  validateRemotePath path = .ok () ∧ ∃ name, safeLocalFileName debug path = .ok name

/-- A path was generated, and it names an entry of the directory in which the given one is. -/
def Beside (path : Str) (generated : Except ScpError Str) : Prop :=
  ∃ staged, generated = .ok staged ∧ (pathFileName staged).isSome = true ∧
    directoryOf staged = directoryOf path

theorem beside_iff {uuid : Uuid} {suffix : Str} (hname : safeLocalFileName debug path = .ok name)
    (hsuffix : Plain suffix) :
    Beside path (remoteGeneratedSibling debug uuid path suffix) ↔ StaysInDirectory path := by
  obtain ⟨staged, hstaged, hfile, hdirectory⟩ :=
    @directoryOf_remoteGeneratedSibling debug uuid path name suffix hname hsuffix
  obtain ⟨hfileName, hvalid⟩ := safeLocalFileName_ok hname
  have hlast : (namedParts path).getLast? = some name := by
    rw [pathFileName_eq] at hfileName
    split at hfileName
    · next last hlast =>
        split at hfileName
        · cases hfileName
        · exact hlast.trans hfileName
    · cases hfileName
  have hbackslash : '\\' ∉ name := fun hmem =>
    (validateReceivedName_ok hvalid).2.2.2 _ hmem (by decide)
  rw [← parentNames_iff hlast hbackslash, ← hdirectory]
  constructor
  · rintro ⟨staged', hstaged', -, hdirectory'⟩
    cases hstaged.symm.trans hstaged'
    exact hdirectory'
  · intro hdirectory'
    exact ⟨staged, hstaged, by rw [hfile]; rfl, hdirectory'⟩

/-- **Which paths are handled as they should be**: the temporary and the backup paths, and those
    that are normalised twice. -/
theorem staged_paths_iff (debug : Str → Str) (path : Str) :
    ((Accepted debug path → ∀ uuid,
        Beside path (remoteTemporaryPath debug uuid path) ∧
        Beside path (remoteTemporaryDirectoryPath debug uuid path) ∧
        Beside path (remoteBackupDirectoryPath debug uuid path)) ∧
      normalizeRemotePath (normalizeRemotePath path) = normalizeRemotePath path ∧
      NoEmptyComponent (normalizeRemotePath path)) ↔
    (Accepted debug path → StaysInDirectory path) ∧ WellSeparated path := by
  refine and_congr ?_ ?_
  · refine forall_congr' fun haccepted => ?_
    obtain ⟨name, hname⟩ := haccepted.2
    have hbeside : ∀ uuid suffix, Plain suffix →
        (Beside path (remoteGeneratedSibling debug uuid path suffix) ↔ StaysInDirectory path) :=
      fun uuid suffix hsuffix => beside_iff hname hsuffix
    constructor
    · intro h
      let uuid : Uuid := ⟨"00000000-0000-0000-0000-000000000000".toList, by decide⟩
      exact (hbeside uuid _ (by decide)).mp (h uuid).1
    · intro h uuid
      exact ⟨(hbeside uuid _ (by decide)).mpr h, (hbeside uuid _ (by decide)).mpr h,
        (hbeside uuid _ (by decide)).mpr h⟩
  · rw [← noEmptyComponent_normalize]
    exact ⟨And.right, fun h => ⟨normalize_idempotent h, h⟩⟩

/-- The temporary file of an upload to `report.txt` lies in the root. -/
theorem staged_paths_counterexample :
    ¬ ∀ (debug : Str → Str) (path : Str),
      (Accepted debug path → ∀ uuid,
        Beside path (remoteTemporaryPath debug uuid path) ∧
        Beside path (remoteTemporaryDirectoryPath debug uuid path) ∧
        Beside path (remoteBackupDirectoryPath debug uuid path)) ∧
      normalizeRemotePath (normalizeRemotePath path) = normalizeRemotePath path ∧
      NoEmptyComponent (normalizeRemotePath path) := by
  intro h
  have haccepted : Accepted id "report.txt".toList := ⟨rfl, "report.txt".toList, rfl⟩
  let uuid : Uuid := ⟨"00000000-0000-0000-0000-000000000000".toList, by decide⟩
  have hbeside := ((h id "report.txt".toList).1 haccepted uuid).1
  exact absurd ((beside_iff haccepted.2.choose_spec (by decide)).mp hbeside) (by decide)

end Hapcli.Sftp
