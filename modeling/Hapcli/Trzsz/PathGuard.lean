/-
  Subject:   The files a transfer reads and writes, and the guard of the paths they are moved to
             (`path_guard.rs`).

  A path is what `==`, `Hash` and `Ord` see of it, its components, written as on Unix. The file
  system answers as it likes: two calls of one path may be answered differently.

  * `sanitizeDownloadRelPath`, **`download_path_contained`** -- the names in a path of the peer, and
    where they lead.
-/
import Hapcli.Trzsz.Buffer

namespace Hapcli.Trzsz

open Hapcli.Process Hapcli.Rust Proc

/-! ## 1. Paths -/

/-- `std::path::Component`. -/
inductive Component where
  | rootDir
  | curDir
  | parentDir
  | normal (name : Str)
  deriving DecidableEq

abbrev PathBuf := List Component

def Component.text : Component → Str
  | .rootDir => ['/']
  | .curDir => ['.']
  | .parentDir => ['.', '.']
  | .normal name => name

/-- `display` and `to_string_lossy`. -/
def display : PathBuf → Str
  | .rootDir :: path => '/' :: List.intercalate ['/'] (path.map Component.text)
  | path => List.intercalate ['/'] (path.map Component.text)

def parent (path : PathBuf) : Option PathBuf :=
  match path.getLast? with
  | none | some .rootDir => none
  | some _ => some path.dropLast

/-- `strip_prefix`. -/
def strip (root path : PathBuf) : Option PathBuf :=
  if root.isPrefixOf path then some (path.drop root.length) else none

/-- `cmp` of lists: the first elements that differ decide. -/
def lexBefore {α : Type} (before : α → α → Bool) : List α → List α → Bool
  | _, [] => false
  | [], _ :: _ => true
  | a :: left, b :: right => before a b || (!before b a && lexBefore before left right)

/-- What decides how components compare: the kind, of a name its scalar values. -/
def Component.rank : Component → List Nat
  | .rootDir => [1]
  | .curDir => [2]
  | .parentDir => [3]
  | .normal name => 4 :: name.map Char.toNat

def Component.before (left right : Component) : Bool :=
  lexBefore (fun a b => decide (a < b)) left.rank right.rank

/-- The order in which directories are removed: those with more components first, of the others
    the greater. -/
def removedBefore (left right : PathBuf) : Bool :=
  decide (right.length < left.length) ||
    (right.length == left.length && !lexBefore Component.before left right)

/-! ## 2. Files -/

/-- An open `File`, known by its identity. -/
structure File where
  id : Nat
  deriving DecidableEq

/-- `std::io::Error`: whether its kind is `NotFound`, and its text. -/
structure IoError where
  notFound : Bool
  text : Str
  deriving DecidableEq

/-- `From<std::io::Error>`. -/
def TrzszError.ofIo (error : IoError) : TrzszError := .io error.text

/-- What `symlink_metadata` tells of a path; all that is neither a directory nor a link is a
    file. -/
inductive FileType where
  | file
  | dir
  | symlink
  deriving DecidableEq

/-- The calls of the operating system. -/
inductive FileCall where
  | seek (file : File) (offset : Nat)
  | read (file : File) (length : Nat)
  | writeAll (file : File) (data : List UInt8)
  | flush (file : File)
  | syncAll (file : File)
  | symlinkMetadata (path : PathBuf)
  | removeFile (path : PathBuf)
  | removeDir (path : PathBuf)
  | rename (source target : PathBuf)
  deriving DecidableEq

/-- What each call answers. -/
def FileCall.Ans : FileCall → Type
  | .read .. => Except IoError (List UInt8)
  | .symlinkMetadata _ => Except IoError FileType
  | _ => Except IoError Unit

/-- A program that works on files. -/
abbrev FileProc (α : Type) : Type 1 := Proc FileCall FileCall.Ans TrzszError α

/-- `?` on a `std::io::Result`. -/
def orFail {α : Type} : Except IoError α → FileProc α
  | .ok a => ret a
  | .error error => fail (.ofIo error)

def seek (file : File) (offset : Nat) : FileProc Unit := act (.seek file offset) orFail

def readInto (file : File) (length : Nat) : FileProc (List UInt8) := act (.read file length) orFail

def writeAll (file : File) (data : List UInt8) : FileProc Unit := act (.writeAll file data) orFail

def flush (file : File) : FileProc Unit := act (.flush file) orFail

def syncAll (file : File) : FileProc Unit := act (.syncAll file) orFail

def symlinkMetadata (path : PathBuf) : FileProc (Except IoError FileType) :=
  act (.symlinkMetadata path) ret

def removeFile (path : PathBuf) : FileProc (Except IoError Unit) := act (.removeFile path) ret

def removeDir (path : PathBuf) : FileProc (Except IoError Unit) := act (.removeDir path) ret

def rename (source target : PathBuf) : FileProc Unit := act (.rename source target) orFail

/-! ## 3. The guard -/

def escapesRoot (path : PathBuf) : TrzszError :=
  .invalidPath ("Target escapes prepared root: ".toList ++ display path)

def ensureWithinRoot (root candidate : PathBuf) : FileProc Unit :=
  if root.isPrefixOf candidate then ret () else fail (escapesRoot candidate)

/-- The loop of `validate_download_target_path`: every directory below the root down to the
    parent. -/
def checkParents (current : PathBuf) : List Component → FileProc Unit
  | [] => ret ()
  | component :: rest => do
      let current := current ++ [component]
      match ← symlinkMetadata current with
      | .error error =>
        if error.notFound then
          fail (.invalidPath ("Parent path no longer exists: ".toList ++ display current))
        else fail (.ofIo error)
      | .ok .symlink => fail (.symlinkNotAllowed (display current))
      | .ok .file =>
        fail (.invalidPath ("Parent path is not a directory: ".toList ++ display current))
      | .ok .dir => checkParents current rest

def validateDownloadTargetPath (root finalPath : PathBuf) : FileProc Unit := do
  ensureWithinRoot root finalPath
  match parent finalPath with
  | none => fail (.invalidPath ("Final path has no parent: ".toList ++ display finalPath))
  | some parent =>
    ensureWithinRoot root parent
    match strip root parent with
    | none => fail (escapesRoot finalPath)
    | some relativeParent =>
      checkParents root relativeParent
      match ← symlinkMetadata finalPath with
      | .ok .symlink => fail (.symlinkNotAllowed (display finalPath))
      | .ok .dir =>
        fail (.invalidPath ("Target path resolves to a directory: ".toList ++
          display finalPath))
      | _ => ret ()

/-! ## 4. The paths of the peer -/

def windowsReservedNames : List Str :=
  ["CON", "PRN", "AUX", "NUL", "COM1", "COM2", "COM3", "COM4", "COM5", "COM6", "COM7", "COM8",
    "COM9", "LPT1", "LPT2", "LPT3", "LPT4", "LPT5", "LPT6", "LPT7", "LPT8", "LPT9"].map (·.toList)

def windowsIllegalChars : List Char := ['<', '>', ':', '"', '|', '?', '*', '\x00']

/-- `char::is_control`: the general category Cc. -/
def isControl (c : Char) : Bool := c.toNat < 0x20 || (0x7f ≤ c.toNat && c.toNat < 0xa0)

section Sanitize

-- the normalization form C, and the platform
variable (nfc : Str → Str) (windows : Bool)

def sanitizeComponent (component : Str) : Except TrzszError Str :=
  let normalized := nfc component
  if component = [] ∨ normalized = [] then .error (.invalidPath "Empty path component".toList)
  else if normalized = ['.'] ∨ normalized = ['.', '.'] then
    .error (.invalidPath ("Relative path component is not allowed: ".toList ++ normalized))
  else if normalized.any (fun c => c = '/' || c = '\\' || isControl c) ||
      (windows && normalized.any (· ∈ windowsIllegalChars)) then
    .error (.invalidPath ("Illegal path component: ".toList ++ normalized))
  else if windows ∧ (normalized.getLast? = some ' ' ∨ normalized.getLast? = some '.' ∨
      normalized.map Char.toUpper ∈ windowsReservedNames) then
    .error (.reservedName normalized)
  else .ok normalized

def sanitizeDownloadRelPath (fileName : Str) : Except TrzszError (List Str) := do
  let normalized := fileName.map fun c => if c = '\\' then '/' else c
  let components ← (normalized.splitOnP (· == '/')).mapM (sanitizeComponent nfc windows)
  if components = [] then .error (.invalidPath "Empty relative path".toList) else .ok components

/-- `std::path::is_separator`. -/
def isSeparator (c : Char) : Bool := c = '/' || (windows && c = '\\')

/-- The prefix of a path on Windows: a drive, or the two names behind two separators. -/
def windowsPrefix : Str → Str
  | a :: b :: rest =>
    if b = ':' then if a.isAlpha then [a, b] else []
    else if isSeparator true a ∧ isSeparator true b then
      let server := rest.takeWhile fun c => !isSeparator true c
      let share := ((rest.drop server.length).drop 1).takeWhile fun c => !isSeparator true c
      a :: b :: server ++ '\\' :: share
    else []
  | _ => []

/-- `Path::components`, behind the prefix. -/
def components (text : Str) : PathBuf :=
  let names := text.splitOnP (isSeparator windows)
  (if text.head?.any (isSeparator windows) then [.rootDir]
    else if names.head? = some ['.'] then [.curDir] else []) ++
    (names.filter fun name => name ≠ [] ∧ name ≠ ['.']).map fun name =>
      if name = ['.', '.'] then .parentDir else .normal name

/-- `PathBuf::push`; a path is its prefix, which it only has on Windows, and its components. -/
def push (path : Str × PathBuf) (text : Str) : Str × PathBuf :=
  let pre := if windows then windowsPrefix text else []
  let pushed := components windows (text.drop pre.length)
  if pre ≠ [] then (pre, pushed)
  else if pushed.head? = some .rootDir then (path.1, pushed)
  else (path.1, path.2 ++ pushed.filter (· ≠ .curDir))

variable {nfc windows}

/-- A name that stands for an entry of the directory it is looked up in. -/
structure PlainName (name : Str) : Prop where
  nonempty : name ≠ []
  notCurrent : name ≠ ['.']
  notParent : name ≠ ['.', '.']
  chars : ∀ c ∈ name, c ≠ '/' ∧ c ≠ '\\' ∧ isControl c = false

theorem sanitizeComponent_ok {component name : Str}
    (h : sanitizeComponent nfc windows component = .ok name) :
    PlainName name ∧ (windows = true → ':' ∉ name) := by
  unfold sanitizeComponent at h
  dsimp only at h
  split_ifs at h with hempty hdots hillegal hreserved
  cases h
  simp only [not_or] at hempty hdots
  simp only [Bool.or_eq_true, List.any_eq_true, not_or, not_exists, not_and, Bool.and_eq_true,
    decide_eq_true_eq, Bool.not_eq_true] at hillegal
  refine ⟨⟨hempty.2, hdots.1, hdots.2, fun c hc => ?_⟩, fun hwindows hcolon => ?_⟩
  · exact ⟨(hillegal.1 c hc).1.1, (hillegal.1 c hc).1.2, (hillegal.1 c hc).2⟩
  · exact hillegal.2 hwindows ':' hcolon (by decide)

theorem forall_of_mapM_ok {ε α β : Type} {f : α → Except ε β} {P : β → Prop}
    (hf : ∀ a b, f a = .ok b → P b) {l : List α} {out : List β} (h : l.mapM f = .ok out) :
    ∀ b ∈ out, P b := by
  induction l generalizing out with
  | nil =>
    cases h
    simp
  | cons a l ih =>
    rw [List.mapM_cons] at h
    cases ha : f a with
    | error error =>
      rw [ha] at h
      cases h
    | ok b =>
      cases hl : l.mapM f with
      | error error =>
        rw [ha, hl] at h
        cases h
      | ok rest =>
        rw [ha, hl] at h
        cases h
        exact List.forall_mem_cons.mpr ⟨hf a b ha, ih hl⟩

/-- A plain name leads one step down. -/
theorem push_plain {name : Str} (h : PlainName name) (hcolon : windows = true → ':' ∉ name)
    (path : Str × PathBuf) : push windows path name = (path.1, path.2 ++ [.normal name]) := by
  have hsep : ∀ c ∈ name, isSeparator windows c = false := by
    intro c hc
    simp [isSeparator, (h.chars c hc).1, (h.chars c hc).2.1]
  have hprefix : (if windows = true then windowsPrefix name else []) = [] := by
    split_ifs with hwindows
    · cases name with
      | nil => rfl
      | cons a rest =>
        cases rest with
        | nil => rfl
        | cons b rest =>
          have hb : b ≠ ':' := by
            rintro rfl
            exact hcolon hwindows (by simp)
          have ha := hsep a List.mem_cons_self
          rw [hwindows] at ha
          simp [windowsPrefix, hb, ha]
    · rfl
  have hcomponents : components windows name = [.normal name] := by
    have hsplit : name.splitOnP (isSeparator windows) = [name] := List.splitOnP_eq_singleton hsep
    have hhead : name.head?.any (isSeparator windows) = false := by
      cases name with
      | nil => rfl
      | cons a rest => exact hsep a List.mem_cons_self
    simp [components, hsplit, hhead, h.nonempty, h.notCurrent, h.notParent]
  simp [push, hprefix, hcomponents]

/-- **What is accepted is a path of plain names; joined to any root it stays below it.** -/
theorem download_path_contained {fileName : Str} {names : List Str}
    (h : sanitizeDownloadRelPath nfc windows fileName = .ok names) :
    (∀ name ∈ names, PlainName name) ∧
      ∀ root, names.foldl (push windows) root = (root.1, root.2 ++ names.map .normal) := by
  have hplain : ∀ name ∈ names, PlainName name ∧ (windows = true → ':' ∉ name) := by
    unfold sanitizeDownloadRelPath at h
    dsimp only at h
    cases hmap : ((fileName.map fun c => if c = '\\' then '/' else c).splitOnP (· == '/')).mapM
        (sanitizeComponent nfc windows) with
    | error error =>
      rw [hmap] at h
      cases h
    | ok components =>
      rw [hmap] at h
      dsimp only [Bind.bind, Except.bind] at h
      split_ifs at h
      cases h
      exact forall_of_mapM_ok (fun _ _ => sanitizeComponent_ok) hmap
  clear h
  refine ⟨fun name hname => (hplain name hname).1, ?_⟩
  induction names with
  | nil => simp
  | cons name names ih =>
    rw [List.forall_mem_cons] at hplain
    intro root
    rw [List.foldl_cons, push_plain hplain.1.1 hplain.1.2, ih hplain.2]
    simp

/-- Two names, with the separators of both platforms between. -/
theorem download_path_contained_two : PlainName ['b'] ∧
    [['a'], ['b']].foldl (push true) (['C', ':'], [.rootDir]) =
      (['C', ':'], [.rootDir, .normal ['a'], .normal ['b']]) :=
  have hok : sanitizeDownloadRelPath id true ['a', '\\', 'b'] = .ok [['a'], ['b']] := by rfl
  have h := download_path_contained hok
  ⟨h.1 _ (by simp), h.2 _⟩

end Sanitize

end Hapcli.Trzsz
