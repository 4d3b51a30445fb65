import EgosGrass.Native.Apps

/-!
# The arrays of `grep`

`buildPattern_eq`: the pattern loop fills `pattern` with the words `argv[1] .. argv[argc - 2]`
joined by single spaces (`patternText`), and writes past `pattern[255]` exactly when that text
has 256 bytes or more. Its first access outside the array is then `pattern[256]`.

`lineScan_eq`: when the block holds a NUL byte, the scan returns the lines of the block's C
string that contain the pattern (`textLines`), and reads nothing outside `buf`. Without a NUL it
reads `buf[BLOCK_SIZE]`, whatever the block holds and whatever the pattern is. A block of text
with no NUL is what `file_read` returns for any file of `BLOCK_SIZE` bytes or more.

Both come from one step lemma per library loop (`copyFrom_zeros`, `spanDelims_cases`,
`scanToken_cases`) and an induction over the loop of `main` that uses it.
-/

namespace EgosGrass

/-! ## `strcat` into a zero-filled array -/

/-- One write past the string of a zero-filled array. -/
theorem writeByte_zeros (t : List UInt8) (k : Nat) (c : UInt8) :
    writeByte (t ++ List.replicate (k + 1) 0) t.length c = .ok (t ++ c :: List.replicate k 0) := by
  simp [writeByte, List.replicate_succ, List.set_append_right]

/-- The copy loop of `strcpy` into the zeros after the string `t`: the bytes and NUL of `src` fit
when `src` is shorter than the zeros; otherwise the first write past the end is at the array's
length. -/
theorem copyFrom_zeros (src t : List UInt8) (k : Nat) :
    copyFrom (t ++ List.replicate k 0) t.length src =
      if src.length < k then .ok (t ++ src ++ List.replicate (k - src.length) 0)
      else .error (t.length + k) := by
  induction src generalizing t k with
  | nil =>
    cases k with
    | zero => simp [copyFrom, writeByte]
    | succ k => rw [copyFrom, writeByte_zeros]; simp [List.replicate_succ]
  | cons c cs ih =>
    cases k with
    | zero => simp [copyFrom, writeByte, bind, Except.bind]
    | succ k =>
      have h := ih (t ++ [c]) k
      simp only [List.length_append, List.length_singleton, List.append_assoc,
        List.singleton_append] at h
      rw [copyFrom, writeByte_zeros]
      simp only [bind, Except.bind, h, List.length_cons, Nat.add_lt_add_iff_right,
        Nat.add_sub_add_right, List.append_assoc, List.cons_append, Nat.add_assoc, Nat.add_comm 1 k]

/-- `strcat` onto the string `t` of a zero-filled array. -/
theorem strcat_zeros {t : List UInt8} {k : Nat} (ht : 0 ∉ t) (hk : 0 < k) (src : CStr) :
    strcat (t ++ List.replicate k 0) src =
      if src.bytes.length < k then .ok (t ++ src.bytes ++ List.replicate (k - src.bytes.length) 0)
      else .error (t.length + k) := by
  obtain ⟨k, rfl⟩ := Nat.exists_eq_add_one_of_ne_zero hk.ne'
  have : strlen (t ++ List.replicate (k + 1) 0) = .ok t.length := by
    simp [strlen, List.indexOf_append_of_not_mem ht, List.replicate_succ]
  simp only [strcat, this, bind, Except.bind, copyFrom_zeros]

/-- A run of `strcat`s onto the string `t` of a zero-filled array: the bytes of all the sources
fit, or the first write past the end is at the array's length. -/
theorem foldlM_strcat_zeros (srcs : List CStr) {t : List UInt8} {k : Nat} (ht : 0 ∉ t)
    (hk : 0 < k) :
    srcs.foldlM strcat (t ++ List.replicate k 0) =
      if (srcs.flatMap CStr.bytes).length < k then
        .ok (t ++ srcs.flatMap CStr.bytes ++ List.replicate (k - (srcs.flatMap CStr.bytes).length) 0)
      else .error (t.length + k) := by
  induction srcs generalizing t k with
  | nil => simp [hk, pure, Except.pure]
  | cons s ss ih =>
    rw [List.foldlM_cons, strcat_zeros ht hk]
    by_cases hs : s.bytes.length < k
    · have ht' : 0 ∉ t ++ s.bytes := by simp [ht, s.no_nul]
      have hfit : ∀ x, x < k - s.bytes.length ↔ s.bytes.length + x < k := fun x => by omega
      simp only [if_pos hs, bind, Except.bind, ih ht' (Nat.sub_pos_of_lt hs)]
      simp only [List.flatMap_cons, List.length_append, List.append_assoc, hfit, Nat.sub_sub]
      split_ifs
      · rfl
      · congr 1; omega
    · simp only [if_neg hs, bind, Except.bind, List.flatMap_cons, List.length_append]
      rw [if_neg (by omega)]

/-! ## The pattern loop -/

/-- The words `grep` searches for: `argv[1] .. argv[argc - 2]`, all but the command and the file
name. -/
def patternWords (argv : List CStr) : List (List UInt8) :=
  ((argv.drop 1).dropLast).map CStr.bytes

/-- The pattern: the words joined by single spaces. -/
def patternText (argv : List CStr) : List UInt8 :=
  [32].intercalate (patternWords argv)

/-- The sources that round `i` of the pattern loop appends: `" "` when `i > 1`, then
`argv[i]`. -/
def patternSources (argv : List CStr) (i : Nat) : List CStr :=
  (if i > 1 then [space] else []) ++ [argv.getD i default]

/-- The pattern loop is one run of `strcat` over the sources of all its rounds. -/
theorem foldlM_patternRound (argv : List CStr) (l : List Nat) (p : List UInt8) :
    l.foldlM (fun pattern i => do
        let pattern ← if i > 1 then strcat pattern space else pure pattern
        strcat pattern (argv.getD i default)) p =
      (l.flatMap (patternSources argv)).foldlM strcat p := by
  induction l generalizing p with
  | nil => rfl
  | cons i l ih =>
    rw [List.foldlM_cons, List.flatMap_cons, List.foldlM_append]
    simp only [ih]
    by_cases hi : i > 1 <;> simp [patternSources, hi, bind_assoc]

/-- Joining with a one-byte separator: the first word, then separator and word for each other. -/
theorem intercalate_cons (sep : UInt8) (w : List UInt8) (ws : List (List UInt8)) :
    [sep].intercalate (w :: ws) = w ++ ws.flatMap (sep :: ·) := by
  induction ws generalizing w with
  | nil => simp [List.intercalate]
  | cons v vs ih => simp [List.intercalate] at ih ⊢; simp [ih]

/-- The rounds after the first append a space and their word. -/
theorem flatMap_patternSources_of_two_le (argv : List CStr) (n : Nat) {a : Nat} (ha : 2 ≤ a) :
    ((List.range' a n).flatMap (patternSources argv)).flatMap CStr.bytes =
      ((List.range' a n).map fun i => (argv.getD i default).bytes).flatMap (32 :: ·) := by
  induction n generalizing a with
  | zero => rfl
  | succ n ih =>
    rw [List.range'_succ, List.flatMap_cons, List.flatMap_append, ih (by omega),
      List.map_cons, List.flatMap_cons]
    simp [patternSources, show a > 1 by omega, space]

/-- Round `i` of `for (i = a; i < a + m; i++)` reads `argv[i]`. -/
theorem map_getD_range' (argv : List CStr) {a m : Nat} (h : a + m ≤ argv.length) :
    (List.range' a m).map (fun i => (argv.getD i default).bytes) =
      ((argv.drop a).take m).map CStr.bytes := by
  induction m generalizing a with
  | zero => simp
  | succ m ih =>
    rw [List.range'_succ, List.drop_eq_getElem_cons (by omega), List.take_succ_cons,
      List.map_cons, List.map_cons, ih (by omega)]
    simp [List.getD_eq_getElem?_getD, List.getElem?_eq_getElem (show a < argv.length by omega)]

/-- The words are the arguments the rounds of the pattern loop read. -/
theorem patternWords_eq (argv : List CStr) :
    patternWords argv = (List.range' 1 (argv.length - 2)).map fun i => (argv.getD i default).bytes := by
  rcases Nat.lt_or_ge argv.length 2 with h | h
  · rw [Nat.sub_eq_zero_of_le h.le, patternWords, List.drop_eq_nil_of_le (by omega)]
    rfl
  · rw [map_getD_range' argv (by omega), patternWords, List.dropLast_eq_take, List.length_drop]
    congr 2

/-- The bytes the pattern loop appends are the pattern text. -/
theorem flatMap_patternSources (argv : List CStr) :
    ((List.range' 1 (argv.length - 2)).flatMap (patternSources argv)).flatMap CStr.bytes =
      patternText argv := by
  rw [patternText, patternWords_eq]
  match argv.length - 2 with
  | 0 => rfl
  | n + 1 =>
    rw [List.range'_succ, List.flatMap_cons, List.flatMap_append,
      flatMap_patternSources_of_two_le argv n (le_refl _), List.map_cons, intercalate_cons]
    simp [patternSources]

/-- The pattern contains no NUL: its words are C strings and the separator is a space. -/
theorem zero_not_mem_patternText (argv : List CStr) : 0 ∉ patternText argv := by
  rw [← flatMap_patternSources]
  simp only [List.mem_flatMap, not_exists, not_and]
  exact fun s _ => s.no_nul

/-- The pattern loop of `grep`: the words fill `pattern` when they take at most 255 bytes with
their separators, the rest of the array staying zero; otherwise the first access past the array
is `pattern[256]`. -/
theorem buildPattern_eq (argv : List CStr) :
    buildPattern argv =
      if (patternText argv).length < patternSize then
        .ok (patternText argv ++ List.replicate (patternSize - (patternText argv).length) 0)
      else .error patternSize := by
  have h₀ : writeByte (List.replicate patternSize 0) 0 0 = .ok ([] ++ List.replicate patternSize 0) :=
    writeByte_zeros [] 255 0
  rw [buildPattern, h₀]
  change (List.range' 1 (argv.length - 2)).foldlM _ ([] ++ List.replicate patternSize 0) = _
  rw [foldlM_patternRound, foldlM_strcat_zeros _ (List.not_mem_nil 0) (by decide),
    flatMap_patternSources]
  rfl

/-- The pattern of `argc ≥ 3` arguments takes the bytes of its `argc - 2` words and `argc - 3`
spaces. -/
theorem patternText_length (argv : List CStr) (h : 3 ≤ argv.length) :
    (patternText argv).length = ((patternWords argv).map List.length).sum + (argv.length - 3) := by
  have hn : (patternWords argv).length = argv.length - 2 := by simp [patternWords]; omega
  obtain ⟨w, ws, hw⟩ := List.exists_cons_of_length_pos (show 0 < (patternWords argv).length by omega)
  have : (ws.flatMap (32 :: ·)).length = (ws.map List.length).sum + ws.length := by
    clear hw
    induction ws with
    | nil => rfl
    | cons v vs ih =>
      simp only [List.flatMap_cons, List.length_append, List.length_cons, List.map_cons,
        List.sum_cons, ih]
      omega
  rw [hw, List.length_cons] at hn
  rw [patternText, hw, intercalate_cons]
  simp only [List.length_append, this, List.map_cons, List.sum_cons]
  omega

/-! ## `strtok` -/

/-- The delimiters of `strtok` are the newline alone. -/
@[simp] theorem mem_newline {c : UInt8} : c ∈ newline ↔ c = 10 := by
  simp [newline]

/-- The first loop of `strtok` passes the newlines. It runs off the end of the array when only
newlines are left, or stops at a NUL or at the first byte of a token. -/
theorem spanDelims_cases (rest : List UInt8) (i : Nat) :
    (rest = List.replicate rest.length 10 ∧ spanDelims newline rest i = .error (i + rest.length)) ∨
    (∃ a r, rest = List.replicate a 10 ++ 0 :: r ∧ spanDelims newline rest i = .ok none) ∨
    (∃ a c r, rest = List.replicate a 10 ++ c :: r ∧ c ≠ 10 ∧ c ≠ 0 ∧
      spanDelims newline rest i = .ok (some (i + a))) := by
  induction rest generalizing i with
  | nil => exact .inl ⟨rfl, rfl⟩
  | cons c rest ih =>
    by_cases h10 : c = 10
    · subst h10
      rcases ih (i + 1) with ⟨h, hs⟩ | ⟨a, r, rfl, hs⟩ | ⟨a, c, r, rfl, h1, h2, hs⟩
      · refine .inl ⟨?_, ?_⟩
        · rw [List.length_cons, List.replicate_succ, ← h]
        · simp [spanDelims, hs, Nat.add_right_comm, Nat.add_assoc]
      · exact .inr (.inl ⟨a + 1, r, rfl, by simpa [spanDelims] using hs⟩)
      · refine .inr (.inr ⟨a + 1, c, r, rfl, h1, h2, ?_⟩)
        simp [spanDelims, hs, Nat.add_right_comm, Nat.add_assoc]
    · by_cases h0 : c = 0
      · subst h0
        exact .inr (.inl ⟨0, rest, rfl, by simp [spanDelims]⟩)
      · exact .inr (.inr ⟨0, c, rest, rfl, h10, h0, by simp [spanDelims, h10, h0]⟩)

/-- The second loop of `strtok` runs to the first newline or NUL, or off the end of the array
when there is neither. -/
theorem scanToken_cases (rest : List UInt8) (i : Nat) :
    (10 ∉ rest ∧ 0 ∉ rest ∧ scanToken newline rest i = .error (i + rest.length)) ∨
    (∃ w r, 10 ∉ w ∧ 0 ∉ w ∧ rest = w ++ 0 :: r ∧
      scanToken newline rest i = .ok (i + w.length, false)) ∨
    (∃ w r, 10 ∉ w ∧ 0 ∉ w ∧ rest = w ++ 10 :: r ∧
      scanToken newline rest i = .ok (i + w.length, true)) := by
  induction rest generalizing i with
  | nil => exact .inl ⟨List.not_mem_nil _, List.not_mem_nil _, rfl⟩
  | cons c rest ih =>
    by_cases h10 : c = 10
    · subst h10
      exact .inr (.inr ⟨[], rest, List.not_mem_nil _, List.not_mem_nil _, rfl, by simp [scanToken]⟩)
    · by_cases h0 : c = 0
      · subst h0
        exact .inr (.inl ⟨[], rest, List.not_mem_nil _, List.not_mem_nil _, rfl,
          by simp [scanToken]⟩)
      · have hc : scanToken newline (c :: rest) i = scanToken newline rest (i + 1) := by
          simp [scanToken, h10, h0]
        have hw : ∀ {w : List UInt8}, 10 ∉ w → 0 ∉ w → 10 ∉ c :: w ∧ 0 ∉ c :: w := fun h1 h2 =>
          ⟨List.not_mem_cons_of_ne_of_not_mem (Ne.symm h10) h1,
            List.not_mem_cons_of_ne_of_not_mem (Ne.symm h0) h2⟩
        have hi : ∀ n, i + 1 + n = i + (n + 1) := fun n => by omega
        rcases ih (i + 1) with ⟨h1, h2, hs⟩ | ⟨w, r, h1, h2, rfl, hs⟩ | ⟨w, r, h1, h2, rfl, hs⟩
        · exact .inl ⟨(hw h1 h2).1, (hw h1 h2).2, by rw [hc, hs, List.length_cons, hi]⟩
        · exact .inr (.inl ⟨c :: w, r, (hw h1 h2).1, (hw h1 h2).2, rfl,
            by rw [hc, hs, List.length_cons, hi]⟩)
        · exact .inr (.inr ⟨c :: w, r, (hw h1 h2).1, (hw h1 h2).2, rfl,
            by rw [hc, hs, List.length_cons, hi]⟩)

/-- A token starts after the newlines in front of it. -/
theorem drop_at_token {buf x : List UInt8} {i a : Nat}
    (h : buf.drop i = List.replicate a 10 ++ x) : buf.drop (i + a) = x := by
  rw [← List.drop_drop, h]
  exact List.drop_left' (List.length_replicate _ _)

/-- The bytes after the first byte of a token. -/
theorem drop_after_token {buf rest : List UInt8} {i a : Nat} {c : UInt8}
    (h : buf.drop i = List.replicate a 10 ++ c :: rest) : buf.drop (i + a + 1) = rest := by
  rw [← List.drop_drop, drop_at_token h]
  rfl

/-- One call `strtok(NULL, "\n")` that resumes at `buf[i]`, by the bytes from there on. It runs
off the end of the array when they hold no NUL. Otherwise it finds no token before the NUL, or a
token `c :: w` that the NUL ends, or one that a newline ends, which it overwrites with a NUL and
resumes after. -/
theorem strtok_cases (buf : List UInt8) (i : Nat) :
    (0 ∉ buf.drop i ∧ strtok newline buf (some i) = .error (i + (buf.drop i).length)) ∨
    (∃ a r, buf.drop i = List.replicate a 10 ++ 0 :: r ∧
      strtok newline buf (some i) = .ok (none, none, buf)) ∨
    (∃ a c w r, buf.drop i = List.replicate a 10 ++ c :: (w ++ 0 :: r) ∧ c ≠ 10 ∧ c ≠ 0 ∧
      10 ∉ w ∧ 0 ∉ w ∧ strtok newline buf (some i) = .ok (some (i + a), none, buf)) ∨
    (∃ a c w r, buf.drop i = List.replicate a 10 ++ c :: (w ++ 10 :: r) ∧ c ≠ 10 ∧ c ≠ 0 ∧
      10 ∉ w ∧ 0 ∉ w ∧ strtok newline buf (some i) =
        .ok (some (i + a), some (i + a + 1 + w.length + 1), buf.set (i + a + 1 + w.length) 0)) := by
  rcases spanDelims_cases (buf.drop i) i with ⟨hR, hs⟩ | ⟨a, r, hR, hs⟩ | ⟨a, c, r, hR, hc10, hc0, hs⟩
  · refine .inl ⟨fun h => ?_, by simp [strtok, hs, bind, Except.bind]⟩
    rw [hR] at h
    exact absurd (List.eq_of_mem_replicate h) (by decide)
  · exact .inr (.inl ⟨a, r, hR, by simp [strtok, hs, bind, Except.bind]⟩)
  · have hd := drop_after_token hR
    rcases scanToken_cases r (i + a + 1) with ⟨h10, h0, ht⟩ | ⟨w, r', h10, h0, rfl, ht⟩ |
      ⟨w, r', h10, h0, rfl, ht⟩
    · refine .inl ⟨?_, ?_⟩
      · rw [hR]
        simp [h0, Ne.symm hc0]
      · simp only [strtok, hs, hd, ht, bind, Except.bind]
        rw [hR]
        simp only [List.length_append, List.length_replicate, List.length_cons]
        congr 1
        omega
    · exact .inr (.inr (.inl ⟨a, c, w, r', hR, hc10, hc0, h10, h0,
        by simp [strtok, hs, hd, ht, bind, Except.bind]⟩))
    · exact .inr (.inr (.inr ⟨a, c, w, r', hR, hc10, hc0, h10, h0,
        by simp [strtok, hs, hd, ht, bind, Except.bind]⟩))

/-- The C string of a token: its bytes up to the first NUL after them. -/
theorem takeWhile_token {c : UInt8} {w : List UInt8} (hc : c ≠ 0) (hw : 0 ∉ w) (x : List UInt8) :
    (c :: (w ++ x)).takeWhile (· != 0) = c :: (w ++ x.takeWhile (· != 0)) := by
  rw [List.takeWhile_cons, if_pos (by simpa using hc),
    List.takeWhile_append_of_pos (fun y hy => by simpa using ne_of_mem_of_not_mem hy hw)]

/-- A C string ends at its NUL. -/
theorem takeWhile_nul (r : List UInt8) : (0 :: r).takeWhile (· != 0) = [] := rfl

/-- A C string goes on past a newline. -/
theorem takeWhile_newline (r : List UInt8) :
    (10 :: r).takeWhile (· != 0) = 10 :: r.takeWhile (· != 0) := rfl

/-- The line `strtok` returns is a C string that ends inside the array: `strstr`, which reads its
haystack only up to the NUL, reads inside `buf`. -/
theorem strtok_line_terminated {buf buf' : List UInt8} {i tok : Nat} {lasts : Option Nat}
    (h : strtok newline buf (some i) = .ok (some tok, lasts, buf')) :
    cstrAt buf' tok ++ [0] <+: buf'.drop tok := by
  have hline : ∀ (c : UInt8) w r, c ≠ 0 → 0 ∉ w →
      (c :: (w ++ 0 :: r)).takeWhile (· != 0) ++ [0] <+: c :: (w ++ 0 :: r) := by
    intro c w r hc hw
    exact ⟨r, by simp [takeWhile_token hc hw]⟩
  rcases strtok_cases buf i with ⟨-, hs⟩ | ⟨a, r, -, hs⟩ | ⟨a, c, w, r, hR, -, hc0, -, hw0, hs⟩ |
    ⟨a, c, w, r, hR, -, hc0, -, hw0, hs⟩ <;> rw [hs] at h <;> cases h
  · rw [cstrAt, drop_at_token hR]
    exact hline c w r hc0 hw0
  · have hd : (buf.set (i + a + 1 + w.length) 0).drop (i + a) = c :: (w ++ 0 :: r) := by
      rw [List.drop_set, if_neg (by omega), drop_at_token hR]
      simp [show i + a + 1 + w.length - (i + a) = w.length + 1 by omega]
    rw [cstrAt, hd]
    exact hline c w r hc0 hw0

/-! ## The line scan -/

/-- The lines of a text as successive calls of `strtok(·, "\n")` return them: the pieces between
newlines, without the empty ones. -/
def textLines (text : List UInt8) : List (List UInt8) :=
  (text.splitOn 10).filter fun l => !l.isEmpty

/-- An empty text has no lines. -/
theorem textLines_nil : textLines [] = [] := rfl

/-- A newline in front of the text starts no line. -/
theorem textLines_newlines (a : Nat) (x : List UInt8) :
    textLines (List.replicate a 10 ++ x) = textLines x := by
  induction a with
  | zero => rfl
  | succ a ih =>
    rw [← ih]
    simp [textLines, List.splitOn, List.splitOnP_cons, List.replicate_succ]

/-- A line that a newline ends. -/
theorem textLines_line {c : UInt8} {w : List UInt8} (hc : c ≠ 10) (hw : 10 ∉ w) (x : List UInt8) :
    textLines (c :: (w ++ 10 :: x)) = (c :: w) :: textLines x := by
  rw [textLines, List.splitOn, ← List.cons_append, List.splitOnP_first _ _ ?_ 10 (by decide)]
  · simp [textLines, List.splitOn]
  · intro y hy
    simpa using ne_of_mem_of_not_mem hy (List.not_mem_cons_of_ne_of_not_mem (Ne.symm hc) hw)

/-- The last line, which the end of the text ends. -/
theorem textLines_last {c : UInt8} {w : List UInt8} (hc : c ≠ 10) (hw : 10 ∉ w) :
    textLines (c :: w) = [c :: w] := by
  rw [textLines, List.splitOn, List.splitOnP_eq_single _ _ ?_]
  · simp
  · intro y hy
    simpa using ne_of_mem_of_not_mem hy (List.not_mem_cons_of_ne_of_not_mem (Ne.symm hc) hw)

/-- A call `strtok(NULL, "\n")` that resumes at `buf[i]`, and the rest of the loop. -/
def scanFrom (pattern : List UInt8) (fuel : Nat) (buf : List UInt8) (i : Nat) :
    Except Nat (List (List UInt8)) := do
  let (line, lasts, buf') ← strtok newline buf (some i)
  scanLines pattern fuel buf' line lasts

/-- The loop stops when `strtok` returned `NULL`. -/
theorem scanLines_none (pattern : List UInt8) (fuel : Nat) (buf : List UInt8) (lasts : Option Nat) :
    scanLines pattern fuel buf none lasts = .ok [] := by
  cases fuel <;> rfl

/-- A round of the loop: test the line, then resume. -/
theorem scanLines_some (pattern : List UInt8) (fuel : Nat) (buf : List UInt8) (tok i : Nat) :
    scanLines pattern (fuel + 1) buf (some tok) (some i) =
      scanFrom pattern fuel buf i >>= fun rest =>
        pure (if strstr (cstrAt buf tok) pattern then cstrAt buf tok :: rest else rest) := by
  simp only [scanLines, scanFrom]
  rcases strtok newline buf (some i) with _ | ⟨_, _, _⟩ <;> rfl

/-- The loop from a `strtok` call at `buf[i]`, with a round for each byte left and one more:
it returns the lines of the C string at `buf[i]` that contain the pattern, or, when no NUL is
left, reads the byte past the end of the array. -/
theorem scanFrom_eq (pattern : List UInt8) (fuel : Nat) (buf : List UInt8) (i : Nat)
    (hf : (buf.drop i).length < fuel) :
    scanFrom pattern fuel buf i =
      if 0 ∈ buf.drop i then
        .ok ((textLines ((buf.drop i).takeWhile (· != 0))).filter (strstr · pattern))
      else .error (i + (buf.drop i).length) := by
  induction fuel generalizing buf i with
  | zero => omega
  | succ f ih =>
    have h10 : ∀ a, ∀ x ∈ List.replicate a (10 : UInt8), (x != 0) = true := fun a x hx => by
      simp [List.eq_of_mem_replicate hx]
    rcases strtok_cases buf i with ⟨h0, hs⟩ | ⟨a, r, hR, hs⟩ |
      ⟨a, c, w, r, hR, hc10, hc0, hw10, hw0, hs⟩ | ⟨a, c, w, r, hR, hc10, hc0, hw10, hw0, hs⟩
    · -- no NUL left: the read past the end
      simp [scanFrom, hs, h0, bind, Except.bind]
    · -- only newlines before the NUL: no line
      simp only [scanFrom, hs, bind, Except.bind, scanLines]
      rw [hR, if_pos (by simp), List.takeWhile_append_of_pos (h10 a),
        takeWhile_nul, textLines_newlines, textLines_nil]
      rfl
    · -- the last line, which the NUL ends
      have hl : cstrAt buf (i + a) = c :: w := by
        rw [cstrAt, drop_at_token hR, takeWhile_token hc0 hw0]
        simp
      simp only [scanFrom, hs, bind, Except.bind]
      simp only [scanLines, strtok, bind, Except.bind, scanLines_none, hl, pure, Except.pure]
      rw [hR, if_pos (show 0 ∈ List.replicate a 10 ++ c :: (w ++ 0 :: r) by simp),
        List.takeWhile_append_of_pos (h10 a), takeWhile_token hc0 hw0, takeWhile_nul,
        List.append_nil, textLines_newlines, textLines_last hc10 hw10]
      by_cases h : strstr (c :: w) pattern <;> simp [h]
    · -- a line that a newline ends, and the loop from after it
      have hj : (buf.set (i + a + 1 + w.length) 0).drop (i + a + 1 + w.length + 1) = r := by
        rw [List.drop_set, if_pos (by omega), Nat.add_assoc _ w.length, ← List.drop_drop,
          drop_after_token hR, ← List.singleton_append, ← List.append_assoc]
        exact List.drop_left' (by simp)
      have hl : cstrAt (buf.set (i + a + 1 + w.length) 0) (i + a) = c :: w := by
        rw [cstrAt, List.drop_set, if_neg (by omega), drop_at_token hR,
          show i + a + 1 + w.length - (i + a) = w.length + 1 by omega]
        simp [takeWhile_token hc0 hw0, takeWhile_nul]
      have hlen : (buf.drop i).length = a + 1 + w.length + 1 + r.length := by
        rw [hR]; simp; omega
      simp only [scanFrom, hs, bind, Except.bind]
      rw [scanLines_some, ih _ _ (by rw [hj]; omega), hj, hl, hlen, hR]
      by_cases h0 : 0 ∈ r
      · rw [if_pos h0, if_pos (by simp [h0]), List.takeWhile_append_of_pos (h10 a),
          takeWhile_token hc0 hw0, takeWhile_newline, textLines_newlines, textLines_line hc10 hw10]
        by_cases h : strstr (c :: w) pattern <;> simp [h, bind, Except.bind, pure, Except.pure]
      · rw [if_neg h0, if_neg (by simp [h0, hc0, hw0, Ne.symm hc0])]
        simp only [bind, Except.bind]
        congr 1
        omega

/-- The lines of the C string at the start of a block that contain the pattern. -/
def matchingLines (pattern block : List UInt8) : List (List UInt8) :=
  (textLines (block.takeWhile (· != 0))).filter (strstr · pattern)

/-- The scan of `grep`: with a NUL in the block, the lines of its C string that contain the
pattern, all reads inside `buf`; with none, the read of `buf[buf.length]`, one past the end. -/
theorem lineScan_eq (pattern buf : List UInt8) :
    lineScan pattern buf =
      if 0 ∈ buf then .ok (matchingLines pattern buf) else .error buf.length := by
  rw [show lineScan pattern buf = scanFrom pattern (buf.length + 1) buf 0 from rfl,
    scanFrom_eq _ _ _ _ (by simp)]
  simp [matchingLines]

example : lineScan [97] [97, 10, 10, 98, 10, 99, 97, 0, 97] = .ok [[97], [99, 97]] := rfl

/-! ## `grep` -/

/-- The file name, `argv[argc - 1]`. -/
def fileArg (argv : List CStr) : List UInt8 :=
  (argv.getD (argv.length - 1) default).bytes

/-- The C string of the pattern array is the pattern. -/
theorem cstrAt_pattern {t : List UInt8} (ht : 0 ∉ t) (k : Nat) :
    cstrAt (t ++ List.replicate (k + 1) 0) 0 = t := by
  rw [cstrAt, List.drop_zero, List.takeWhile_append_of_pos
    (fun y hy => by simpa using ne_of_mem_of_not_mem hy ht)]
  simp [List.replicate_succ, takeWhile_nul]

/-- `grep` as a whole. With fewer than three arguments it prints its usage. A pattern of 256
bytes or more writes `pattern[256]`. An unknown file gets its message. For a block that holds a
NUL, it prints the lines of the block's C string that contain the pattern, and returns 0 if there
is one and 1 if not. For a block with no NUL it reads `buf[BLOCK_SIZE]`. -/
theorem grep_eq (dirLookup : List UInt8 → Int) (fileRead : Int → Block) (argv : List CStr) :
    grep dirLookup fileRead argv =
      if argv.length < 3 then .ok ([.usage], -1)
      else if patternSize ≤ (patternText argv).length then .error (.pattern patternSize)
      else if dirLookup (fileArg argv) < 0 then .ok ([.notFound (fileArg argv)], -1)
      else if 0 ∈ (fileRead (dirLookup (fileArg argv))).bytes then
        .ok ((matchingLines (patternText argv) (fileRead (dirLookup (fileArg argv))).bytes).map .line,
          if (matchingLines (patternText argv) (fileRead (dirLookup (fileArg argv))).bytes).isEmpty
          then 1 else 0)
      else .error (.buf blockSize) := by
  unfold grep
  by_cases h3 : argv.length < 3
  · simp only [if_pos h3]
  rw [if_neg h3, if_neg h3, buildPattern_eq]
  by_cases hp : patternSize ≤ (patternText argv).length
  · simp [hp, not_lt.2 hp, Except.mapError, bind, Except.bind]
  rw [if_pos (show (patternText argv).length < patternSize by omega), if_neg hp]
  obtain ⟨k, hk⟩ := Nat.exists_eq_add_one_of_ne_zero
    (show patternSize - (patternText argv).length ≠ 0 by omega)
  simp only [Except.mapError, bind, Except.bind, hk, cstrAt_pattern (zero_not_mem_patternText argv),
    fileArg, lineScan_eq, Block.length_eq, pure, Except.pure]
  by_cases hd : dirLookup (argv.getD (argv.length - 1) default).bytes < 0
  · rw [if_pos hd, if_pos hd]
  rw [if_neg hd, if_neg hd]
  by_cases h0 : 0 ∈ (fileRead (dirLookup (argv.getD (argv.length - 1) default).bytes)).bytes
  · rw [if_pos h0, if_pos h0]
  · rw [if_neg h0, if_neg h0]

/-- The command name `"grep"`. -/
def grepCommand : CStr := ⟨[103, 114, 101, 112], by decide⟩

/-- A file name `"f"`. -/
def fileF : CStr := ⟨[102], by decide⟩

/-- A one-letter pattern `"a"`. -/
def letterA : CStr := ⟨[97], by decide⟩

/-- A word of 256 letters `a`. -/
def longWord : CStr := ⟨List.replicate 256 97, fun h => absurd (List.eq_of_mem_replicate h) (by decide)⟩

/-- A first block of 512 letters `a`, as any file that starts with 512 of them has. -/
def letterBlock : Block := ⟨List.replicate 512 97, List.length_replicate _ _⟩

/-- `grep` with a pattern word of 256 bytes writes `pattern[256]`, and `grep a f`, on a file whose
first block holds no NUL, reads `buf[512]`. -/
theorem grep_overruns_both_arrays :
    grep (fun _ => 0) (fun _ => letterBlock) [grepCommand, longWord, fileF] = .error (.pattern 256) ∧
    grep (fun _ => 0) (fun _ => letterBlock) [grepCommand, letterA, fileF] = .error (.buf 512) := by
  constructor
  · -- one word of 256 bytes and no space
    have hlen : (patternText [grepCommand, longWord, fileF]).length = 256 := by
      rw [patternText_length _ (by decide),
        show patternWords [grepCommand, longWord, fileF] = [longWord.bytes] from rfl,
        List.map_singleton, List.sum_cons, List.sum_nil, longWord, List.length_replicate]
      rfl
    rw [grep_eq, if_neg (by decide), if_pos (by rw [hlen]; rfl)]
    rfl
  · rw [grep_eq, if_neg (by decide), if_neg (by decide), if_neg (by decide),
      if_neg (show 0 ∉ letterBlock.bytes from fun h => absurd (List.eq_of_mem_replicate h) (by decide))]
    rfl

/-- `grep` on arguments whose pattern fits in `pattern[256]`, and a file it finds whose first
block holds a NUL: it prints, in order, the non-empty lines of the block's C string that contain
the words joined by single spaces, and returns 0 when it printed one and 1 otherwise. Every line
the scan hands to `strstr` is a token `strtok` returned, whose C string ends in a NUL inside the
buffer. -/
theorem grep_prints_matching_lines (dirLookup : List UInt8 → Int) (fileRead : Int → Block)
    (argv : List CStr) (h3 : 3 ≤ argv.length) (hp : (patternText argv).length < patternSize)
    (hf : 0 ≤ dirLookup (fileArg argv)) (h0 : 0 ∈ (fileRead (dirLookup (fileArg argv))).bytes) :
    grep dirLookup fileRead argv =
      .ok ((matchingLines (patternText argv) (fileRead (dirLookup (fileArg argv))).bytes).map .line,
        if (matchingLines (patternText argv) (fileRead (dirLookup (fileArg argv))).bytes).isEmpty
        then 1 else 0) ∧
    ∀ buf buf' i tok lasts, strtok newline buf (some i) = .ok (some tok, lasts, buf') →
      cstrAt buf' tok ++ [0] <+: buf'.drop tok := by
  refine ⟨?_, fun _ _ _ _ _ h => strtok_line_terminated h⟩
  rw [grep_eq, if_neg (show ¬argv.length < 3 by omega),
    if_neg (show ¬patternSize ≤ (patternText argv).length by omega),
    if_neg (show ¬dirLookup (fileArg argv) < 0 by omega), if_pos h0]

/-- A first block holding `"a\nb\nab"`, then NULs. -/
def abBlock : Block :=
  ⟨[97, 10, 98, 10, 97, 98] ++ List.replicate 506 0, by
    rw [List.length_append, List.length_replicate]; rfl⟩

/-- `grep a f` on that block prints `a` and `ab`. -/
theorem grep_prints_matching_lines_of_a :
    3 ≤ [grepCommand, letterA, fileF].length ∧
      (patternText [grepCommand, letterA, fileF]).length < patternSize ∧
      0 ≤ (0 : Int) ∧ 0 ∈ abBlock.bytes ∧
      matchingLines (patternText [grepCommand, letterA, fileF]) abBlock.bytes = [[97], [97, 98]] ∧
      (grep (fun _ => 0) (fun _ => abBlock) [grepCommand, letterA, fileF] =
        .ok ((matchingLines (patternText [grepCommand, letterA, fileF]) abBlock.bytes).map .line,
          if (matchingLines (patternText [grepCommand, letterA, fileF]) abBlock.bytes).isEmpty
          then 1 else 0) ∧
      ∀ buf buf' i tok lasts, strtok newline buf (some i) = .ok (some tok, lasts, buf') →
        cstrAt buf' tok ++ [0] <+: buf'.drop tok) :=
  ⟨by decide, by decide, le_rfl, by decide, by decide,
    grep_prints_matching_lines _ _ _ (by decide) (by decide) le_rfl (by decide)⟩

end EgosGrass
