import Mathlib.Algebra.Order.BigOperators.Group.List
import EgosGrass.Native.Apps

/-!
# The line count of `wcl`

`blockLines_eq`: the loop of `wcl` counts the lines of the block's C string (`lineCount`): one per
newline, and one more for a last line, after the last newline, that holds a byte other than
`'\r'`. It reads no byte after the first NUL. A block therefore has at most `BLOCK_SIZE` lines.

`wcl_eq`: `wcl` prints a message for each file it does not find, in the order of the arguments,
then the sum of the line counts of the files it reads, taken as an `int`. Below `2 ^ 22`
arguments that sum cannot wrap, and `wcl_total` gives the printed total as the plain sum.
-/

namespace EgosGrass

/-! ## What the count is -/

/-- The bytes of `text` after its last newline (all of it, when it has none). -/
def lastLine (text : List UInt8) : List UInt8 :=
  (text.reverse.takeWhile (· != 10)).reverse

/-- The lines of a text: one per newline, and one for a last line with a byte other than `'\r'`. -/
def lineCount (text : List UInt8) : Nat :=
  text.count 10 + if (lastLine text).any (· != 13) then 1 else 0

/-- A newline ends the last line. -/
@[simp] theorem lastLine_append_newline (t : List UInt8) : lastLine (t ++ [10]) = [] := by
  simp [lastLine]

/-- Any other byte extends the last line. -/
theorem lastLine_append_of_ne (t : List UInt8) {c : UInt8} (hc : c ≠ 10) :
    lastLine (t ++ [c]) = lastLine t ++ [c] := by
  simp [lastLine, hc]

/-- A text has at most one line per byte: a counted last line holds a byte that is no newline. -/
theorem lineCount_le_length (text : List UInt8) : lineCount text ≤ text.length := by
  rw [lineCount, List.count_eq_countP, List.length_eq_countP_add_countP (· == 10)]
  split
  · rename_i h
    obtain ⟨c, hc, -⟩ := List.any_eq_true.1 h
    have hc' : c ∈ text.reverse.takeWhile (· != 10) := List.mem_reverse.1 hc
    have hc10 : c ≠ 10 := by simpa using List.mem_takeWhile_imp hc'
    have hct : c ∈ text := List.mem_reverse.1 (List.takeWhile_subset _ hc')
    have : 0 < text.countP fun a => ¬(a == 10) = true :=
      List.countP_pos_iff.2 ⟨c, hct, by simpa using hc10⟩
    omega
  · omega

/-! ## The counting loop -/

/-- The loop is its body folded over the bytes before the first NUL. -/
theorem countLoop_eq_foldl (bytes : List UInt8) (acc : Nat × Bool) :
    countLoop bytes acc = (bytes.takeWhile (· != 0)).foldl countByte acc := by
  induction bytes generalizing acc with
  | nil => rfl
  | cons c rest ih => by_cases h : c = 0 <;> simp [countLoop, h, ih]

/-- Over a text without NUL, from no lines and no content: the newlines, and whether the last
line has a byte other than `'\r'`. One case per kind of byte. -/
theorem foldl_countByte {text : List UInt8} (h : 0 ∉ text) :
    text.foldl countByte (0, false) = (text.count 10, (lastLine text).any (· != 13)) := by
  induction text using List.reverseRecOn with
  | nil => rfl
  | append_singleton t c ih =>
    have hc : c ≠ 0 := fun e => h (by simp [e])
    rw [List.foldl_append, ih fun h' => h (List.mem_append_left _ h')]
    by_cases h10 : c = 10
    · subst h10
      simp [countByte]
    · rw [lastLine_append_of_ne t h10]
      by_cases h13 : c = 13
      · subst h13
        simp [countByte, List.count_singleton']
      · simp [countByte, h10, h13, hc, List.count_singleton', Ne.symm h10]

/-- The count of one block is the line count of its C string. -/
theorem blockLines_eq (buf : Block) : blockLines buf = lineCount (cstrAt buf.bytes 0) := by
  have h0 : 0 ∉ buf.bytes.takeWhile (· != 0) := fun h => by simpa using List.mem_takeWhile_imp h
  show _ = lineCount (buf.bytes.takeWhile (· != 0))
  rw [blockLines, countLoop_eq_foldl, foldl_countByte h0, lineCount]
  cases (lastLine _).any (· != 13) <;> rfl

/-- `"ab\r\n\n\r"`: a blank line counts, a last line of only `'\r'` does not. -/
example : lineCount [97, 98, 13, 10, 10, 13] = 2 := by decide

/-- A block has at most `BLOCK_SIZE` lines. -/
theorem blockLines_le (buf : Block) : blockLines buf ≤ blockSize := by
  rw [blockLines_eq, ← buf.length_eq]
  exact (lineCount_le_length _).trans (List.takeWhile_sublist _).length_le

/-- The counting loop of `wcl`, for every block: it counts the lines of the block's C string, one
per newline and one for a last line holding a byte other than `'\r'`, so at most `BLOCK_SIZE`. -/
theorem blockLines_counts_lines (buf : Block) :
    blockLines buf = lineCount (cstrAt buf.bytes 0) ∧ blockLines buf ≤ blockSize :=
  ⟨blockLines_eq buf, blockLines_le buf⟩

/-! ## The file loop -/

/-- The blocks `wcl` counts: those of the files it finds and reads. -/
def readBlocks (dirLookup : List UInt8 → Int) (fileRead : Int → Option Block)
    (files : List CStr) : List Block :=
  files.filterMap fun f => if dirLookup f.bytes < 0 then none else fileRead (dirLookup f.bytes)

/-- The files `wcl` does not find. -/
def missingFiles (dirLookup : List UInt8 → Int) (files : List CStr) : List (List UInt8) :=
  (files.filter fun f => dirLookup f.bytes < 0).map CStr.bytes

section
variable (dirLookup : List UInt8 → Int) (fileRead : Int → Option Block)

/-- The file loop adds the lines of the blocks it reads, with wrap-around, and prints the files
it does not find, in order. -/
theorem foldl_countFile (files : List CStr) (total : BitVec 32) (prints : List WclPrint) :
    files.foldl (countFile dirLookup fileRead) (total, prints) =
      (total + BitVec.ofNat 32 ((readBlocks dirLookup fileRead files).map blockLines).sum,
        prints ++ (missingFiles dirLookup files).map .notFound) := by
  induction files generalizing total prints with
  | nil => simp [readBlocks, missingFiles]
  | cons f fs ih =>
    rw [List.foldl_cons, countFile]
    by_cases hf : dirLookup f.bytes < 0
    · simp [ih, readBlocks, missingFiles, hf]
    · cases hr : fileRead (dirLookup f.bytes) <;>
        simp [ih, readBlocks, missingFiles, hf, hr, BitVec.add_assoc, BitVec.ofNat_add_ofNat]

/-- `wcl`: the usage message without a file; otherwise the files not found, then the total. -/
theorem wcl_eq (argv : List CStr) :
    wcl dirLookup fileRead argv =
      if argv.length < 2 then ([.usage], -1)
      else ((missingFiles dirLookup (argv.drop 1)).map .notFound ++
        [.total (BitVec.ofNat 32
          ((readBlocks dirLookup fileRead (argv.drop 1)).map blockLines).sum).toInt], 0) := by
  rw [wcl]
  split
  · rfl
  · rw [foldl_countFile]
    simp

/-- The lines of the blocks read from `files`: at most `BLOCK_SIZE` per file. -/
theorem sum_blockLines_le (files : List CStr) :
    ((readBlocks dirLookup fileRead files).map blockLines).sum ≤ blockSize * files.length := by
  calc ((readBlocks dirLookup fileRead files).map blockLines).sum
      ≤ (readBlocks dirLookup fileRead files).length * blockSize := by
        have := List.sum_le_card_nsmul ((readBlocks dirLookup fileRead files).map blockLines)
          blockSize fun n hn => by
            obtain ⟨b, -, rfl⟩ := List.mem_map.1 hn
            exact blockLines_le b
        rwa [List.length_map] at this
    _ ≤ files.length * blockSize := Nat.mul_le_mul_right _ (List.length_filterMap_le _ _)
    _ = blockSize * files.length := Nat.mul_comm _ _

/-- With at least one file and fewer than `2 ^ 22` arguments, `total_lines` does not wrap:
`wcl` prints the files not found, then the sum of the line counts of the blocks it reads. -/
theorem wcl_total (argv : List CStr) (h : 2 ≤ argv.length) (hsmall : argv.length ≤ 2 ^ 22) :
    wcl dirLookup fileRead argv =
      ((missingFiles dirLookup (argv.drop 1)).map .notFound ++
        [.total ((readBlocks dirLookup fileRead (argv.drop 1)).map
          fun b => lineCount (cstrAt b.bytes 0)).sum], 0) := by
  have hle := sum_blockLines_le dirLookup fileRead (argv.drop 1)
  have hsum : ((readBlocks dirLookup fileRead (argv.drop 1)).map blockLines).sum < 2 ^ 31 := by
    rw [List.length_drop, blockSize] at hle
    omega
  have hint : (BitVec.ofNat 32 ((readBlocks dirLookup fileRead (argv.drop 1)).map
      blockLines).sum).toInt = ((readBlocks dirLookup fileRead (argv.drop 1)).map blockLines).sum := by
    rw [BitVec.toInt_eq_toNat_cond, BitVec.toNat_ofNat, Nat.mod_eq_of_lt (by omega),
      if_pos (by omega)]
  rw [wcl_eq, if_neg (by omega), hint, show blockLines = _ from funext blockLines_eq]

end

/-- The command name `"wcl"`. -/
def wclCommand : CStr := ⟨[119, 99, 108], by decide⟩

/-- The file name `"x"`. -/
def fileX : CStr := ⟨[120], by decide⟩

/-- The file name `"y"`. -/
def fileY : CStr := ⟨[121], by decide⟩

/-- A directory holding `x` only. -/
def lookupX (name : List UInt8) : Int := if name = [120] then 0 else -1

/-- A first block holding `"a\r\n\nb"`, then NULs: three lines. -/
def threeLineBlock : Block :=
  ⟨[97, 13, 10, 10, 98] ++ List.replicate 507 0, by
    rw [List.length_append, List.length_replicate]; rfl⟩

/-- `wcl x y x` in a directory holding `x` only: `y` is not found, and the total is twice the
three lines of `x`. -/
theorem wcl_total_of_x_y_x :
    2 ≤ [wclCommand, fileX, fileY, fileX].length ∧ [wclCommand, fileX, fileY, fileX].length ≤ 2 ^ 22 ∧
      missingFiles lookupX [fileX, fileY, fileX] = [[121]] ∧
      ((readBlocks lookupX (fun _ => some threeLineBlock) [fileX, fileY, fileX]).map
        fun b => lineCount (cstrAt b.bytes 0)).sum = 6 ∧
      wcl lookupX (fun _ => some threeLineBlock) [wclCommand, fileX, fileY, fileX] =
        ((missingFiles lookupX ([wclCommand, fileX, fileY, fileX].drop 1)).map .notFound ++
          [.total ((readBlocks lookupX (fun _ => some threeLineBlock)
            ([wclCommand, fileX, fileY, fileX].drop 1)).map
              fun b => lineCount (cstrAt b.bytes 0)).sum], 0) :=
  ⟨by decide, by decide, by decide, by decide, wcl_total _ _ _ (by decide) (by decide)⟩

end EgosGrass
