/-
  Subject:   Texts as paths: the names between the slashes, and the directory a path lies in.

  * `names`, **`names_append_slash`**, `names_intercalate` -- the names between the slashes, and paths
    made of names;
  * **`names_trimEndMatches`**, **`names_replacePairs`** -- slashes at the end and in pairs make no
    difference to the names;
  * **`mem_tail_pieces_iff`**, **`pair_replacePairs_iff`** -- where there is nothing between two slashes.
-/
import Hapcli.Rust.Text

namespace Hapcli.Rust

/-! ## 1. Names -/

/-- `path.split('/')`. -/
def slashPieces (path : Str) : List Str := path.splitOnP (· == '/')

/-- The pieces between the slashes that are not empty. -/
def names (path : Str) : List Str := (slashPieces path).filter (· ≠ [])

/-- `trim_end_matches(c)`. -/
def trimEndMatches (c : Char) (s : Str) : Str := (s.reverse.dropWhile (· == c)).reverse

/-- `replace("//", "/")`: from left to right, and not again in what was written. -/
def replacePairs : Str → Str
  | '/' :: '/' :: rest => '/' :: replacePairs rest
  | c :: rest => c :: replacePairs rest
  | [] => []

/-- `parts.join("/")`. -/
def joinSlash (parts : List Str) : Str := List.intercalate ['/'] parts

/-- A text without a slash. -/
def Plain (s : Str) : Prop := '/' ∉ s

instance (s : Str) : Decidable (Plain s) := inferInstanceAs (Decidable (¬ _))

variable {c : Char} {s : Str}

theorem slashPieces_plain (h : Plain s) : slashPieces s = [s] :=
  List.splitOnP_eq_singleton fun _ hc => beq_eq_false_iff_ne.mpr fun heq => h (heq ▸ hc)

theorem slashPieces_append_slash (a b : Str) :
    slashPieces (a ++ '/' :: b) = slashPieces a ++ slashPieces b :=
  List.splitOnP_append_cons a b rfl

theorem names_append_slash (a b : Str) : names (a ++ '/' :: b) = names a ++ names b := by
  rw [names, slashPieces_append_slash, List.filter_append, names, names]

theorem names_plain (h : Plain s) : names s = if s = [] then [] else [s] := by
  rw [names, slashPieces_plain h]
  by_cases hs : s = [] <;> simp [hs]

@[simp] theorem names_nil : names [] = [] := rfl

@[simp] theorem names_slash (s : Str) : names ('/' :: s) = names s := names_append_slash [] s

theorem plain_or_split (s : Str) : Plain s ∨ ∃ a b, s = a ++ '/' :: b ∧ Plain b := by
  induction s with
  | nil => exact .inl List.not_mem_nil
  | cons c s ih =>
    obtain hplain | ⟨a, b, rfl, hb⟩ := ih
    · by_cases hc : c = '/'
      · exact .inr ⟨[], s, by rw [hc, List.nil_append], hplain⟩
      · exact .inl fun hmem => (List.mem_cons.mp hmem).elim (fun h => hc h.symm) hplain
    · exact .inr ⟨c :: a, b, rfl, hb⟩

theorem mem_names {name : Str} (h : name ∈ names s) :
    name ≠ [] ∧ Plain name ∧ ∀ c ∈ name, c ∈ s := by
  obtain ⟨hpiece, hne⟩ := List.mem_filter.mp h
  refine ⟨by simpa using hne, ?_⟩
  clear h hne
  -- along the slashes, from the last one to the first
  induction hlength : s.length using Nat.strong_induction_on generalizing s with
  | _ n ih =>
    obtain hplain | ⟨a, b, rfl, hb⟩ := plain_or_split s
    · rw [slashPieces_plain hplain, List.mem_singleton] at hpiece
      subst hpiece
      exact ⟨hplain, fun _ hc => hc⟩
    · rw [slashPieces_append_slash, List.mem_append, slashPieces_plain hb, List.mem_singleton]
        at hpiece
      obtain hpiece | rfl := hpiece
      · rw [List.length_append, List.length_cons] at hlength
        obtain ⟨hplain, hsub⟩ := ih a.length (by omega) hpiece rfl
        exact ⟨hplain, fun c hc => List.mem_append_left _ (hsub c hc)⟩
      · exact ⟨hb, fun c hc => List.mem_append_right _ (List.mem_cons_of_mem _ hc)⟩

theorem exists_mem_names (h : c ∈ s) (hc : c ≠ '/') : ∃ name ∈ names s, c ∈ name := by
  induction hlength : s.length using Nat.strong_induction_on generalizing s with
  | _ n ih =>
    obtain hplain | ⟨a, b, rfl, hb⟩ := plain_or_split s
    · rw [names_plain hplain, if_neg (List.ne_nil_of_mem h)]
      exact ⟨s, List.mem_singleton_self s, h⟩
    · rw [names_append_slash]
      rw [List.mem_append, List.mem_cons] at h
      obtain h | h | h := h
      · rw [List.length_append, List.length_cons] at hlength
        obtain ⟨name, hname, hmem⟩ := ih a.length (by omega) h rfl
        exact ⟨name, List.mem_append_left _ hname, hmem⟩
      · exact absurd h hc
      · rw [names_plain hb, if_neg (List.ne_nil_of_mem h)]
        exact ⟨b, List.mem_append_right _ (List.mem_singleton_self b), h⟩

theorem names_joinSlash {parts : List Str} (h : ∀ part ∈ parts, part ≠ [] ∧ Plain part) :
    names (joinSlash parts) = parts := by
  induction parts with
  | nil => rfl
  | cons part parts ih =>
    rw [List.forall_mem_cons] at h
    obtain ⟨⟨hne, hplain⟩, hparts⟩ := h
    cases parts with
    | nil =>
      rw [joinSlash, List.intercalate_singleton, names_plain hplain, if_neg hne]
    | cons part' parts =>
      have hjoin : joinSlash (part :: part' :: parts) = part ++ '/' :: joinSlash (part' :: parts) :=
        rfl
      rw [hjoin, names_append_slash, ih hparts, names_plain hplain, if_neg hne,
        List.singleton_append]

theorem names_trimEndMatches (s : Str) : names (trimEndMatches '/' s) = names s := by
  have hsplit : s = trimEndMatches '/' s ++ (s.reverse.takeWhile (· == '/')).reverse := by
    rw [trimEndMatches, ← List.reverse_append, List.takeWhile_append_dropWhile, List.reverse_reverse]
  have hslashes : (s.reverse.takeWhile (· == '/')).reverse =
      List.replicate (s.reverse.takeWhile (· == '/')).reverse.length '/' :=
    List.eq_replicate_of_mem fun c hc => by
      simpa using List.all_eq_true.mp List.all_takeWhile c (List.mem_reverse.mp hc)
  have happend : ∀ k (a : Str), names (a ++ List.replicate k '/') = names a := by
    intro k a
    induction k generalizing a with
    | zero => rw [List.replicate_zero, List.append_nil]
    | succ k ih =>
      rw [List.replicate_succ, names_append_slash]
      have hnone := ih []
      rw [List.nil_append] at hnone
      rw [hnone, names_nil, List.append_nil]
  conv_rhs => rw [hsplit, hslashes, happend]

theorem names_replacePairs (s : Str) : names (replacePairs s) = names s := by
  have hfront : ∀ a : Str, Plain a → names (a ++ replacePairs s) = names (a ++ s) := by
    fun_induction replacePairs s with
    | case1 rest ih =>
      intro a ha
      have hrest := ih [] List.not_mem_nil
      rw [List.nil_append, List.nil_append] at hrest
      rw [names_append_slash, names_append_slash, names_slash, hrest]
    | case2 c rest hpair ih =>
      intro a ha
      by_cases hc : c = '/'
      · have hrest := ih [] List.not_mem_nil
        rw [List.nil_append, List.nil_append] at hrest
        rw [hc, names_append_slash, names_append_slash, hrest]
      · have hplain : Plain (a ++ [c]) := fun hmem =>
          (List.mem_append.mp hmem).elim ha fun h => hc (List.mem_singleton.mp h).symm
        have hrest := ih (a ++ [c]) hplain
        rwa [List.append_assoc, List.append_assoc, List.singleton_append, List.singleton_append]
          at hrest
    | case3 => exact fun _ _ => rfl
  exact hfront [] List.not_mem_nil

example : replacePairs ['/', '/'] = ['/'] := by decide +kernel

/-! ## 2. Directories -/

/-- The directory in which the last name of a path is looked up: from the root or not, and the names
    that lead there. -/
def directoryOf (path : Str) : Bool × List Str :=
  (isAbsolutePath path, ((names path).filter (· ≠ ['.'])).dropLast)

/-! ## 3. Nothing between slashes -/

theorem slashPieces_cons_of_ne (hc : c ≠ '/') (s : Str) :
    ∃ piece pieces, slashPieces s = piece :: pieces ∧ slashPieces (c :: s) = (c :: piece) :: pieces := by
  obtain ⟨piece, pieces, hs⟩ := List.exists_cons_of_ne_nil (List.splitOnP_ne_nil (· == '/') s)
  refine ⟨piece, pieces, hs, ?_⟩
  rw [slashPieces, List.splitOnP_cons_eq_if_modifyHead, hs, if_neg (by simpa using hc)]
  rfl

theorem head_slashPieces (s : Str) :
    (slashPieces s).head? = some [] ↔ s = [] ∨ s.head? = some '/' := by
  cases s with
  | nil => exact ⟨fun _ => .inl rfl, fun _ => rfl⟩
  | cons c s =>
    by_cases hc : c = '/'
    · subst hc
      exact ⟨fun _ => .inr rfl, fun _ => rfl⟩
    · obtain ⟨piece, pieces, -, hcons⟩ := slashPieces_cons_of_ne hc s
      rw [hcons]
      simp [hc]

theorem pair_cons_slash (s : Str) :
    ['/', '/'] <:+: '/' :: s ↔ s.head? = some '/' ∨ ['/', '/'] <:+: s := by
  rw [List.infix_cons_iff, List.cons_prefix_cons]
  cases s with
  | nil => simp
  | cons c s => simp [eq_comm]

theorem infix_cons_of_ne {pattern : Str} (hc : c ≠ '/') :
    '/' :: pattern <:+: c :: s ↔ '/' :: pattern <:+: s := by
  rw [List.infix_cons_iff, List.cons_prefix_cons]
  exact ⟨fun h => h.resolve_left fun heq => hc heq.1.symm, .inr⟩

theorem mem_tail_pieces_iff (s : Str) :
    [] ∈ (slashPieces s).tail ↔ ['/', '/'] <:+: s ∨ s.getLast? = some '/' := by
  induction s with
  | nil => simp [slashPieces]
  | cons c s ih =>
    by_cases hc : c = '/'
    · subst hc
      obtain ⟨piece, pieces, hs⟩ := List.exists_cons_of_ne_nil (List.splitOnP_ne_nil (· == '/') s)
      have hpieces : slashPieces ('/' :: s) = [] :: slashPieces s := slashPieces_append_slash [] s
      have hhead := head_slashPieces s
      rw [slashPieces, hs, List.head?_cons, Option.some.injEq] at hhead
      rw [slashPieces, hs, List.tail_cons] at ih
      rw [hpieces, List.tail_cons, slashPieces, hs, List.mem_cons, eq_comm, hhead, ih, pair_cons_slash,
        List.getLast?_cons]
      cases s with
      | nil => simp
      | cons d s => simp [or_assoc, List.getLast?_cons]
    · obtain ⟨piece, pieces, hs, hcons⟩ := slashPieces_cons_of_ne hc s
      rw [hs, List.tail_cons] at ih
      rw [hcons, List.tail_cons, ih, infix_cons_of_ne hc, List.getLast?_cons]
      cases s with
      | nil => simp [hc]
      | cons d s => simp [List.getLast?_cons]

theorem head?_replacePairs (s : Str) : (replacePairs s).head? = s.head? := by
  fun_cases replacePairs s <;> rfl

/-- A pair of slashes is left just where there were three in a row. -/
theorem pair_replacePairs_iff (s : Str) :
    ['/', '/'] <:+: replacePairs s ↔ ['/', '/', '/'] <:+: s := by
  fun_induction replacePairs s with
  | case1 rest ih =>
    have hfirst : ['/', '/', '/'] <+: '/' :: '/' :: rest ↔ rest.head? = some '/' := by
      cases rest with
      | nil => simp
      | cons d rest => simp [eq_comm (a := '/')]
    have hsecond : ['/', '/', '/'] <+: '/' :: rest → rest.head? = some '/' := by
      cases rest with
      | nil => simp
      | cons d rest => exact fun h => by simp_all
    rw [pair_cons_slash, head?_replacePairs, ih, List.infix_cons_iff, List.infix_cons_iff, hfirst]
    exact ⟨fun h => h.imp_right .inr, fun h => h.elim .inl fun h => h.imp_left hsecond⟩
  | case2 c rest hpair ih =>
    by_cases hc : c = '/'
    · subst hc
      have hhead : rest.head? ≠ some '/' := by
        intro hhead
        obtain ⟨rest', rfl⟩ := List.head?_eq_some_iff.mp hhead
        exact hpair rest' rfl rfl
      have hfirst : ¬ ['/', '/', '/'] <+: '/' :: rest := by
        intro hpre
        obtain ⟨_, hpre⟩ := List.cons_prefix_cons.mp hpre
        exact hhead (List.head?_eq_some_iff.mpr
          ⟨_, (List.cons_prefix_iff.mp hpre).choose_spec.1⟩)
      rw [pair_cons_slash, head?_replacePairs, ih, List.infix_cons_iff]
      exact ⟨fun h => .inr (h.resolve_left hhead), fun h => .inr (h.resolve_left hfirst)⟩
    · rw [infix_cons_of_ne hc, infix_cons_of_ne hc, ih]
  | case3 => simp

theorem replacePairs_of_no_pair (h : ¬ ['/', '/'] <:+: s) : replacePairs s = s := by
  fun_induction replacePairs s with
  | case1 rest ih => exact absurd (pair_cons_slash _ |>.mpr (.inl rfl)) h
  | case2 c rest hpair ih => rw [ih fun hrest => h (List.infix_cons hrest)]
  | case3 => rfl

theorem mem_of_mem_replacePairs (h : c ∈ replacePairs s) : c ∈ s := by
  fun_induction replacePairs s with
  | case1 rest ih =>
    obtain rfl | h := List.mem_cons.mp h
    · exact List.mem_cons_self
    · exact List.mem_cons_of_mem _ (List.mem_cons_of_mem _ (ih h))
  | case2 d rest hpair ih =>
    obtain rfl | h := List.mem_cons.mp h
    · exact List.mem_cons_self
    · exact List.mem_cons_of_mem _ (ih h)
  | case3 => cases h

theorem getLast?_replacePairs (s : Str) : (replacePairs s).getLast? = s.getLast? := by
  fun_induction replacePairs s with
  | case1 rest ih =>
    rw [List.getLast?_cons, ih, List.getLast?_cons, List.getLast?_cons]
    cases rest <;> rfl
  | case2 c rest hpair ih => rw [List.getLast?_cons, ih, List.getLast?_cons]
  | case3 => rfl

end Hapcli.Rust
