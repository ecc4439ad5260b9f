import Mathlib.Data.List.Basic

/-!
# `GPhoto2.Digigr8.Init`: the catalogue of a digigr8 camera

`digi_init` of `digigr8.c`, from the bytes that the read of the catalogue has put into its block.
The block has been cleared before, and no result of the port is looked at. Running out of memory is
not modelled.

`realloc` may leave the block where it is or move it, and the loop that casts deleted entries out
reads through the old pointer too. A `memcpy` whose ranges overlap copies here as if through a
buffer.
-/

set_option autoImplicit false

namespace GPhoto2.Digigr8

/-- The fields of a `struct _CameraPrivateLibrary` that `digi_init` sets. -/
structure Priv where
  catalog          : Option (List UInt8)
  nbEntries        : Int
  lastFetchedEntry : Int
  initDone         : Bool
  deriving DecidableEq

/-- The block of `calloc (0x4010, 1)` with what was read. -/
def catalogBlock (data : List UInt8) : List UInt8 :=
  data.take 0x4000 ++ List.replicate (0x4010 - (data.take 0x4000).length) 0

/-- `for (i=0; i<0x4000 && catalog[i]; i+=16);`. The count is that of the entries up to `0x4000`. -/
def endOfEntries (catalog : List UInt8) : Nat → Nat → Nat
  | 0, i => i
  | n + 1, i => if catalog.getD i 0 ≠ 0 then endOfEntries catalog n (i + 16) else i

/-- `memcpy` of `n` bytes within a block. It is stuck where it leaves the block. -/
def copyWithin (block : List UInt8) (dest src n : Nat) : Option (List UInt8) :=
  if src + n ≤ block.length ∧ dest + n ≤ block.length then
    some (block.take dest ++ (block.drop src).take n ++ block.drop (dest + n))
  else
    none

/-- The loop over the entries up to `i`, with `n` of them left from `j` on. Where the block has
moved, it is stuck at `catalog[j]`. -/
def castOut (moved : Bool) (i : Nat) : Nat → Nat → List UInt8 → Int → Option (List UInt8 × Int)
  | 0, _, block, nbEntries => some (block, nbEntries)
  | n + 1, j, block, nbEntries =>
    if moved then
      none
    else if block.getD j 0 = 0 ∨ block.getD j 0 = 0x64 then
      (copyWithin block j (j + 16) (i + 16 - j)).bind fun block =>
        castOut moved i n (j + 16) block (nbEntries - 1)
    else
      castOut moved i n (j + 16) block nbEntries

/-- `digi_init`. -/
def digiInit (moved : Bool) (data : List UInt8) : Option Priv :=
  let catalog := catalogBlock data
  let i := endOfEntries catalog 1024 0
  let catalogTmp := catalog.take i ++ List.replicate 16 0
  if i ≠ 0 then
    (castOut moved i (i / 16) 0 catalogTmp (i / 16 : Nat)).map fun result =>
      { catalog := some result.1, nbEntries := result.2, lastFetchedEntry := -1, initDone := true }
  else
    some { catalog := none, nbEntries := 0, lastFetchedEntry := -1, initDone := true }

end GPhoto2.Digigr8
