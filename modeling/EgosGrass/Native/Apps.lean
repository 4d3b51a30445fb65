import Mathlib.Data.List.Infix
import Mathlib.Algebra.Order.Ring.Nat
import Mathlib.Algebra.Order.Ring.Int

/-!
# The user applications: `grep` and `wcl`

`grep PATTERN... FILE` joins its arguments but the last, with single spaces, into the static
array `pattern[256]`. It reads the first `BLOCK_SIZE`-byte block of the file into `buf`, and
prints each line of the block, as `strtok(buf, "\n")` splits them, that contains the pattern.

Memory is modelled byte by byte, and each access to `pattern` or `buf` is checked against the
array's bounds. C leaves an access outside the array undefined; here it stops the program with
the index it touched (`Overrun`), the event a bound on the program rules out. An array is a
`List UInt8` of its own length, and a C pointer into it is an index.

`strcat`, `strtok` and `strstr` come from the C library, not from the source. `strcat` and
`strtok` are written out byte by byte as newlib has them, since where they read and write is the
question. `strstr` reads only its two strings, and is modelled by its result. `dir_lookup` and
`file_read` belong to the file system and are arguments of `grep`: a block is any `BLOCK_SIZE`
bytes, those `file_read` leaves in `buf`.

`wcl FILE...` counts the lines of the first block of each file and prints their sum. Its loop
stops at `BLOCK_SIZE` or at a NUL, so it stays inside `buf`; a line counts if a newline ends it or
if it holds a byte other than `'\r'`.
-/

namespace EgosGrass

/-! ## C strings and arrays -/

/-- A C string argument: its bytes before the terminating NUL, which it does not contain. -/
structure CStr where
  bytes : List UInt8
  no_nul : 0 ∉ bytes

instance : Inhabited CStr := ⟨⟨[], List.not_mem_nil 0⟩⟩

/-- `BLOCK_SIZE`, the bytes of one disk block: `wcl.c` defines it as 512, and `grep.c` takes it
from the library headers. -/
def blockSize : Nat := 512

/-- The first block of a file as `file_read(file_ino, 0, buf)` leaves it in `buf`. -/
structure Block where
  bytes : List UInt8
  length_eq : bytes.length = blockSize

/-- `buf[i] = c` in an array of `buf.length` bytes; past the end, the index written. -/
def writeByte (buf : List UInt8) (i : Nat) (c : UInt8) : Except Nat (List UInt8) :=
  if i < buf.length then .ok (buf.set i c) else .error i

/-- The C string at `buf[i]`: its bytes up to the first NUL. -/
def cstrAt (buf : List UInt8) (i : Nat) : List UInt8 :=
  (buf.drop i).takeWhile (· != 0)

/-! ## The C library -/

/-- `strlen(buf)` of the string at the start of an array: the index of its first NUL; with none,
the read past the end. -/
def strlen (buf : List UInt8) : Except Nat Nat :=
  if 0 ∈ buf then .ok (buf.indexOf 0) else .error buf.length

/-- The copy loop of `strcpy(dst + i, src)`: the bytes of `src`, then its NUL, from `dst[i]` on. -/
def copyFrom : List UInt8 → Nat → List UInt8 → Except Nat (List UInt8)
  | dst, i, [] => writeByte dst i 0
  | dst, i, c :: cs => do copyFrom (← writeByte dst i c) (i + 1) cs

/-- `strcat(dst, src)`: copy `src` over the NUL of the string in `dst`. -/
def strcat (dst : List UInt8) (src : CStr) : Except Nat (List UInt8) := do
  copyFrom dst (← strlen dst) src.bytes

/-- The first loop of newlib's `__strtok_r`: from `buf[i]` on (`rest`), pass the delimiters. The
first other byte starts the token; if it is the NUL there is none. Reading `buf[i]` when `rest`
is empty reads past the end. -/
def spanDelims (delim : List UInt8) : List UInt8 → Nat → Except Nat (Option Nat)
  | [], i => .error i
  | c :: rest, i =>
    if c ∈ delim then spanDelims delim rest (i + 1)
    else if c = 0 then .ok none
    else .ok (some i)

/-- The second loop of `__strtok_r`: from `buf[i]` on, the first delimiter or NUL ends the token.
Returns its index and whether it is a delimiter. -/
def scanToken (delim : List UInt8) : List UInt8 → Nat → Except Nat (Nat × Bool)
  | [], i => .error i
  | c :: rest, i =>
    if c ∈ delim then .ok (i, true)
    else if c = 0 then .ok (i, false)
    else scanToken delim rest (i + 1)

/-- `strtok(s, delim)`, as newlib's `__strtok_r` with `skip_leading_delim`, on the array `buf`.
The saved pointer `lasts` is an index into `buf`, `none` for `NULL`; the first call,
`strtok(buf, delim)`, is `lasts = some 0`. Returns the token's index (`none` for `NULL`), the new
`lasts`, and `buf` with the delimiter that ends the token overwritten by a NUL. -/
def strtok (delim buf : List UInt8) (lasts : Option Nat) :
    Except Nat (Option Nat × Option Nat × List UInt8) :=
  match lasts with
  | none => .ok (none, none, buf)
  | some i => do
    match ← spanDelims delim (buf.drop i) i with
    | none => .ok (none, none, buf)
    | some tok =>
      match ← scanToken delim (buf.drop (tok + 1)) (tok + 1) with
      | (j, true) => .ok (some tok, some (j + 1), buf.set j 0)
      | (_, false) => .ok (some tok, none, buf)

/-- `strstr(haystack, needle) != NULL`: the needle occurs in the haystack. -/
def strstr (haystack needle : List UInt8) : Bool :=
  decide (needle <:+: haystack)

/-! ## `grep.c` -/

/-- The size of `static char pattern[256]`. -/
def patternSize : Nat := 256

/-- The separator `" "` of the pattern loop. -/
def space : CStr := ⟨[32], by decide⟩

/-- The delimiters `"\n"` of `strtok`. -/
def newline : List UInt8 := [10]

/-- The pattern loop of `main`: `pattern[0] = '\0'`, then for `i = 1 .. argc - 2`,
`strcat(pattern, " ")` when `i > 1` and `strcat(pattern, argv[i])`. The static array starts
zeroed. Returns the array, or the index of the first access past its end. -/
def buildPattern (argv : List CStr) : Except Nat (List UInt8) := do
  let pattern ← writeByte (List.replicate patternSize 0) 0 0
  (List.range' 1 (argv.length - 2)).foldlM (fun pattern i => do
    let pattern ← if i > 1 then strcat pattern space else pure pattern
    strcat pattern (argv.getD i default)) pattern

/-- The `while (line != NULL)` loop of `main`, from the `buf`, `line` and `lasts` a `strtok` call
left: the lines it prints. `fuel` bounds the rounds; `lineScan` gives one more than `buf` has
bytes, which is never used up. -/
def scanLines (pattern : List UInt8) :
    Nat → List UInt8 → Option Nat → Option Nat → Except Nat (List (List UInt8))
  | 0, _, _, _ => .ok []
  | _ + 1, _, none, _ => .ok []
  | fuel + 1, buf, some tok, lasts => do
    let (line, lasts, buf') ← strtok newline buf lasts
    let rest ← scanLines pattern fuel buf' line lasts
    return if strstr (cstrAt buf tok) pattern then cstrAt buf tok :: rest else rest

/-- The scan of `main`: `line = strtok(buf, "\n")`, then the loop. -/
def lineScan (pattern buf : List UInt8) : Except Nat (List (List UInt8)) := do
  let (line, lasts, buf') ← strtok newline buf (some 0)
  scanLines pattern (buf.length + 1) buf' line lasts

/-- What `grep` prints. -/
inductive GrepPrint
  /-- The two `INFO` lines of the usage message. -/
  | usage
  /-- `INFO("grep: %s: file not found", filename)`. -/
  | notFound (filename : List UInt8)
  /-- `printf("%s\n\r", line)`. -/
  | line (text : List UInt8)

/-- The access that leaves an array of `grep`. -/
inductive Overrun
  /-- An access of `pattern[i]`, `i ≥ 256`. -/
  | pattern (i : Nat)
  /-- A read of `buf[i]`, `i ≥ BLOCK_SIZE`. -/
  | buf (i : Nat)
  deriving DecidableEq, Repr

/-- `main` of `grep.c`, with `dir_lookup(workdir_ino, ·)` and the block `file_read(·, 0, buf)`
leaves as functions. Returns what it prints and the value it returns, or the first access
outside `pattern` or `buf`. -/
def grep (dirLookup : List UInt8 → Int) (fileRead : Int → Block) (argv : List CStr) :
    Except Overrun (List GrepPrint × Int) :=
  if argv.length < 3 then .ok ([.usage], -1)
  else do
    let pattern ← (buildPattern argv).mapError .pattern
    let filename := (argv.getD (argv.length - 1) default).bytes
    let fileIno := dirLookup filename
    if fileIno < 0 then return ([.notFound filename], -1)
    let lines ← (lineScan (cstrAt pattern 0) (fileRead fileIno).bytes).mapError .buf
    return (lines.map .line, if lines.isEmpty then 1 else 0)

/-! ## `wcl.c` -/

/-- What `wcl` prints. -/
inductive WclPrint
  /-- `INFO("usage: wcl [FILE1] [FILE2] ...")`. -/
  | usage
  /-- `INFO("wcl: file %s not found", filename)`. -/
  | notFound (filename : List UInt8)
  /-- `printf("%d\n\r", total_lines)`. -/
  | total (lines : Int)

/-- The body of the counting loop on the byte `buf[i]`: `lines` and `has_content` after it. -/
def countByte (acc : Nat × Bool) (c : UInt8) : Nat × Bool :=
  if c = 10 then (acc.1 + 1, false)
  else if c ≠ 13 ∧ c ≠ 0 then (acc.1, true)
  else acc

/-- The loop `for (i = 0; i < BLOCK_SIZE && buf[i] != '\0'; i++)` from `buf[i]` on (`rest`):
it stops at the end of the block or at a NUL. -/
def countLoop : List UInt8 → Nat × Bool → Nat × Bool
  | [], acc => acc
  | c :: rest, acc => if c ≠ 0 then countLoop rest (countByte acc c) else acc

/-- The lines of one block: the loop from `lines = 0, has_content = 0`, then one more line if
the last one has content. -/
def blockLines (buf : Block) : Nat :=
  let (lines, hasContent) := countLoop buf.bytes (0, false)
  if hasContent then lines + 1 else lines

/-- One round of the file loop on `argv[f]`, with `total_lines` and what is printed so far.
`fileRead` is `none` when `file_read` returns a negative value. -/
def countFile (dirLookup : List UInt8 → Int) (fileRead : Int → Option Block)
    (acc : BitVec 32 × List WclPrint) (filename : CStr) : BitVec 32 × List WclPrint :=
  let fileIno := dirLookup filename.bytes
  if fileIno < 0 then (acc.1, acc.2 ++ [.notFound filename.bytes])
  else match fileRead fileIno with
    | none => acc
    | some buf => (acc.1 + BitVec.ofNat 32 (blockLines buf), acc.2)

/-- `main` of `wcl.c`, with `dir_lookup(workdir_ino, ·)` and `file_read(·, 0, buf)` as
functions. `total_lines` is an `int`, added to with wrap-around. Returns what it prints and the
value it returns. -/
def wcl (dirLookup : List UInt8 → Int) (fileRead : Int → Option Block) (argv : List CStr) :
    List WclPrint × Int :=
  if argv.length < 2 then ([.usage], -1)
  else
    let (totalLines, prints) := (argv.drop 1).foldl (countFile dirLookup fileRead) (0, [])
    (prints ++ [.total totalLines.toInt], 0)

end EgosGrass
