import GPhoto2.Ptp.CanonChanges

/-!
# `GPhoto2.Ptp.CustomFunc`: the custom functions of an EOS camera as a text

`ptp_pack_EOS_CustomFuncEx`, which reads the text that `ptp_unpack_EOS_CustomFuncEx` prints. The
first number of the text is the size of the payload, and says how many numbers are read. A
number is read where the one before it ended, one character further on: reading behind the
terminator has no defined outcome.
-/

set_option autoImplicit false

namespace GPhoto2

/-- The digits behind a sign. -/
def skipSign : CString → CString
  | '-' :: s => s
  | '+' :: s => s
  | s => s

/-- Where `strtoul` in base 16 stops. Without any digits that is where it began. -/
def strtoulEnd (str : CString) : CString :=
  let s := skipSign (str.dropWhile isSpace)
  if (s.head?.bind hexDigit).isSome then
    (skipHexMark s).dropWhile fun c => (hexDigit c).isSome
  else str

variable (params : PTPParams)

/-- The loop of `ptp_pack_EOS_CustomFuncEx`. -/
def packWords : Nat → CString → Option (List UInt8)
  | 0, _ => some []
  | n + 1, str =>
    match strtoulEnd str with
    | [] => if n = 0 then some (htod32ap params (UInt32.ofNat (strtoul16 str))) else none
    -- skip the ',' delimiter
    | _ :: rest =>
      (packWords n rest).map fun bytes =>
        htod32ap params (UInt32.ofNat (strtoul16 str)) ++ bytes

/-- `ptp_pack_EOS_CustomFuncEx`: the size it returns, also where it is given no block, and the
words it writes into one. -/
def ptpPackEOSCustomFuncEx (str : CString) : Option (UInt32 × List UInt8) :=
  (packWords params (UInt32.ofNat (strtoul16 str) / 4).toNat str).map fun bytes =>
    (UInt32.ofNat (strtoul16 str), bytes)

end GPhoto2
