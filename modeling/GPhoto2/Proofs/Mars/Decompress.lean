import GPhoto2.Mars.Decompress
import Mathlib.Data.List.GetD
import Mathlib.Data.List.Induction

/-!
# `GPhoto2.Proofs.Mars.Decompress`: which pictures are decoded

A compressed picture is a list of items, one for each pixel (`Stream`), and `decoded` is the picture
that they stand for. `pixel_run` shows that a pixel is decoded as its item says, and
`pixel_stuck` when it is not: the first two pixels of the third row have no neighbour at the top
left, and are read in front of the picture for it. `decompress_iff` follows the whole picture.
-/

set_option autoImplicit false

namespace GPhoto2.Mars

open Lib Comp

/-! ### Compressed pictures -/

/-- The differences that have a code. -/
inductive Delta
  | same
  | minus3
  | plus3
  | plus8
  | minus8
  | minus20
  | plus20

def Delta.val : Delta → Int
  | same => 0
  | minus3 => -3
  | plus3 => 3
  | plus8 => 8
  | minus8 => -8
  | minus20 => -20
  | plus20 => 20

def Delta.code : Delta → List Bool
  | same => [false]
  | minus3 => [true, true, false]
  | plus3 => [true, false, true]
  | plus8 => [true, false, false, false]
  | minus8 => [true, false, false, true]
  | minus20 => [true, true, true, true]
  | plus20 => [true, true, true, false, false]

/-- What stands for a pixel. -/
inductive Item
  /-- The byte itself. -/
  | raw (b : UInt8)
  /-- A difference to what the neighbours let expect. -/
  | relative (d : Delta)
  /-- The five high bits of the value. -/
  | absolute (v : Fin 32)

/-- The code in front of the five bits of a value. -/
def absoluteCode : List Bool := [true, true, true, false, true]

def Item.bits : Item → List Bool
  | raw b => bitsOf 8 b.toNat
  | relative d => d.code
  | absolute v => absoluteCode ++ bitsOf 5 v

def Item.IsRaw (x : Item) : Prop := ∃ b, x = .raw b

def Item.IsAbsolute (x : Item) : Prop := ∃ v, x = .absolute v

instance : DecidablePred Item.IsRaw
  | .raw b => isTrue ⟨b, rfl⟩
  | .relative _ => isFalse fun h => by cases h.choose_spec
  | .absolute _ => isFalse fun h => by cases h.choose_spec

/-- The pixel in a row and a column. -/
def pixelAt (width : Nat) (out : List UInt8) (row col : Nat) : Nat :=
  (out.getD (row * width + col) 0).toNat

/-- What the neighbours at distance two let expect. In the first two rows it is the one at the left,
in the first two columns the mean of those above, in the last two the mean of three. -/
def estimate (width : Nat) (out : List UInt8) (row col : Nat) : Nat :=
  if row < 2 then
    pixelAt width out row (col - 2)
  else if col < 2 then
    (pixelAt width out (row - 2) col + pixelAt width out (row - 2) (col + 2)) / 2
  else if width ≤ col + 2 then
    (pixelAt width out (row - 2) col + pixelAt width out row (col - 2) +
      pixelAt width out (row - 2) (col - 2) + 1) / 3
  else
    (pixelAt width out row (col - 2) + pixelAt width out (row - 2) col +
      pixelAt width out (row - 2) (col - 2) / 2 +
      pixelAt width out (row - 2) (col + 2) / 2 + 1) / 3

/-- The value of a pixel behind those in `out`. -/
def Item.value (width : Nat) (out : List UInt8) : Item → UInt8
  | raw b => b
  | relative d => clamp (d.val + estimate width out (out.length / width) (out.length % width))
  | absolute v => UInt8.ofNat (8 * v)

/-- The picture that the items stand for. -/
def decoded (width : Nat) (items : List Item) : List UInt8 :=
  items.foldl (fun out x => out ++ [x.value width out]) []

/-- The items of a picture: the first two of each of the first two rows are raw, and no others. -/
structure Stream (width height : Nat) where
  items : List Item
  length_items : items.length = height * width
  raw_iff : ∀ i (h : i < items.length), items[i].IsRaw ↔ i / width < 2 ∧ i % width < 2

/-- The bits of the items. -/
def bitsOfItems (items : List Item) : List Bool := items.flatMap Item.bits

/-- The function returns with the picture of the stream behind just the bits of the stream. -/
def Decodes {width height : Nat} (stream : Stream width height) (inp : Nat → UInt8) : Prop :=
  ∃ s, decompress inp width height start = some (.ok (), s) ∧
    s.out.length = width * height ∧ s.out = decoded width stream.items ∧
      s.bitpos = (bitsOfItems stream.items).length

variable (width : Nat) (items : List Item)

theorem decoded_append (x : Item) :
    decoded width (items ++ [x]) =
      decoded width items ++ [x.value width (decoded width items)] := by
  rw [decoded, List.foldl_append]
  rfl

theorem length_decoded :
    (decoded width items).length = items.length := by
  induction items using List.reverseRecOn with
  | nil => rfl
  | append_singleton items x ih =>
    rw [decoded_append, List.length_append, List.length_append, ih]
    rfl

theorem bitsOfItems_append (items' : List Item) :
    bitsOfItems (items ++ items') = bitsOfItems items ++ bitsOfItems items' :=
  List.flatMap_append

/-! ### The table -/

theorem precalcTable_delta {w : Nat} (hw : w < 256) (d : Delta) (h : d.code <+: bitsOf 8 w) :
    precalcTable w = ⟨false, d.val, d.code.length⟩ := by
  revert w
  cases d <;> decide +kernel

theorem precalcTable_absolute {w : Nat} (hw : w < 256) (h : absoluteCode <+: bitsOf 8 w) :
    precalcTable w = ⟨true, 0, 5⟩ := by
  revert w
  decide +kernel

theorem and_f8 {w : Nat} (hw : w < 256) : w &&& 0xf8 = 8 * (w / 8) := by
  revert w
  decide +kernel

theorem take_bitsOf {w : Nat} (hw : w < 256) : (bitsOf 8 w).take 5 = bitsOf 5 (w / 8) := by
  revert w
  decide +kernel

theorem ofBits_bitsOf_five {v : Nat} (hv : v < 32) : ofBits (bitsOf 5 v) = v := by
  revert v
  decide +kernel

theorem and_f8_of_prefix {w : Nat} (hw : w < 256) (v : Fin 32) (h : bitsOf 5 v <+: bitsOf 8 w) :
    w &&& 0xf8 = 8 * v := by
  rw [List.prefix_iff_eq_take, length_bitsOf, take_bitsOf hw] at h
  have hv := congrArg ofBits h
  rw [ofBits_bitsOf_five v.isLt, ofBits_bitsOf_five (by omega)] at hv
  rw [and_f8 hw, hv]

theorem length_delta_code (d : Delta) : d.code.length ≤ 8 := by
  cases d <;> decide

/-! ### The steps of a pixel -/

section

variable {inp : Nat → UInt8} {s : Decoder} {width row col : Nat}

theorem advance_run {n : Nat} (h : s.bitpos + n < 2147483648) :
    advance n s = some (.ok (), { s with bitpos := s.bitpos + n }) := if_pos h

theorem advance_stuck {n : Nat} (h : ¬ s.bitpos + n < 2147483648) : advance n s = none := if_neg h

theorem outp_run {k : Nat} {i : Int} (hi : i = -k) (hpositive : 0 < k) (h : k ≤ s.out.length) :
    outp i s = some (.ok (s.out.getD (s.out.length - k) 0), s) := by
  have hindex : ((s.out.length : Int) + i).toNat = s.out.length - k := by omega
  rw [← hindex]
  exact if_pos (by omega)

theorem outp_stuck {k : Nat} {i : Int} (hi : i = -k) (h : s.out.length < k) : outp i s = none :=
  if_neg (by omega)

/-- The variables hold the neighbours of the pixel, as far as there are any. -/
structure Sees (width row col : Nat) (s : Decoder) : Prop where
  left : 2 ≤ col → s.lp.toNat = pixelAt width s.out row (col - 2)
  top : 2 ≤ row → s.tp.toNat = pixelAt width s.out (row - 2) col
  topLeft : 2 ≤ row → 2 ≤ col → s.tlp.toNat = pixelAt width s.out (row - 2) (col - 2)
  topRight : 2 ≤ row → col + 2 < width → s.trp.toNat = pixelAt width s.out (row - 2) (col + 2)

/-- The top left neighbour of the first two pixels of the third row is in front of the picture. -/
theorem readNeighbours_stuck (hlength : s.out.length = row * width + col) (hrow : row = 2)
    (hcol : col < 2) : readNeighbours width row col s = none := by
  subst hrow
  by_cases hleft : 2 ≤ s.out.length
  · have hlp := outp_run (s := s) (i := -2) (k := 2) rfl (by omega) hleft
    rw [readNeighbours, bind_run_ok hlp, modify_bind_run]
    refine bind_run_none (outp_stuck (k := 2 * width + 2) (by omega) ?_)
    show s.out.length < 2 * width + 2
    omega
  · rw [readNeighbours]
    exact bind_run_none (outp_stuck (k := 2) rfl (by omega))

theorem readNeighbours_run (hwidth : 4 ≤ width) (hlength : s.out.length = row * width + col)
    (hcol : row < 2 → 2 ≤ col) (hin : ¬ (row = 2 ∧ col < 2)) :
    ∃ s', readNeighbours width row col s = some (.ok (), s') ∧ s'.out = s.out ∧
      s'.bitpos = s.bitpos ∧ Sees width row col s' := by
  by_cases hrow : row > 1
  · obtain ⟨r, rfl⟩ : ∃ r, row = r + 2 := ⟨row - 2, by omega⟩
    have hrows : (r + 2) * width = r * width + 2 * width := Nat.add_mul r 2 width
    have hfar : 2 * width + 2 ≤ s.out.length := by
      by_cases hr : r = 0
      · subst hr
        omega
      · have hone : 1 * width ≤ r * width := Nat.mul_le_mul_right width (by omega)
        omega
    have hlp := outp_run (s := s) (i := -2) (k := 2) rfl (by omega) (by omega)
    have htlp : ∀ lp tp tlp trp, outp (-2 * width - 2) ⟨s.bitpos, s.out, lp, tp, tlp, trp⟩ =
        some (.ok (s.out.getD (s.out.length - (2 * width + 2)) 0),
          ⟨s.bitpos, s.out, lp, tp, tlp, trp⟩) :=
      fun _ _ _ _ => outp_run (by omega) (by omega) hfar
    have htp : ∀ lp tp tlp trp, outp (-2 * width) ⟨s.bitpos, s.out, lp, tp, tlp, trp⟩ =
        some (.ok (s.out.getD (s.out.length - 2 * width) 0),
          ⟨s.bitpos, s.out, lp, tp, tlp, trp⟩) :=
      fun _ _ _ _ => outp_run (by omega) (by omega) (Nat.le_trans (Nat.le_add_right _ 2) hfar)
    have htrp : ∀ lp tp tlp trp, outp (-2 * width + 2) ⟨s.bitpos, s.out, lp, tp, tlp, trp⟩ =
        some (.ok (s.out.getD (s.out.length - (2 * width - 2)) 0),
          ⟨s.bitpos, s.out, lp, tp, tlp, trp⟩) :=
      fun _ _ _ _ => outp_run (by omega) (by omega)
        (Nat.le_trans (Nat.sub_le _ 2) (Nat.le_trans (Nat.le_add_right _ 2) hfar))
    have hall : readNeighbours width (r + 2) col s =
        (if (col : Int) < width - 2 then do
          let trp ← outp (-2 * width + 2)
          Comp.modify fun s => { s with trp := trp }
        else
          pure () : Comp Decoder Int Unit)
        { s with
          lp := s.out.getD (s.out.length - 2) 0
          tlp := s.out.getD (s.out.length - (2 * width + 2)) 0
          tp := s.out.getD (s.out.length - 2 * width) 0 } := by
      rw [readNeighbours, bind_run_ok hlp, modify_bind_run, if_pos hrow,
        bind_run_ok (htlp _ _ _ _), modify_bind_run, bind_run_ok (htp _ _ _ _), modify_bind_run]
    have hleft : 2 ≤ col → (s.out.getD (s.out.length - 2) 0).toNat =
        pixelAt width s.out (r + 2) (col - 2) := by
      intro _
      rw [pixelAt, hlength, Nat.add_sub_assoc (by omega)]
    have htop : (s.out.getD (s.out.length - 2 * width) 0).toNat =
        pixelAt width s.out r col := by
      rw [pixelAt, hlength, show (r + 2) * width + col - 2 * width = r * width + col by omega]
    have htopLeft : 2 ≤ col → (s.out.getD (s.out.length - (2 * width + 2)) 0).toNat =
        pixelAt width s.out r (col - 2) := by
      intro _
      rw [pixelAt, hlength,
        show (r + 2) * width + col - (2 * width + 2) = r * width + (col - 2) by omega]
    rw [hall]
    by_cases hright : (col : Int) < width - 2
    · rw [if_pos hright, bind_run_ok (htrp _ _ _ _)]
      refine ⟨_, rfl, rfl, rfl, hleft, fun _ => htop, fun _ => htopLeft, fun _ _ => ?_⟩
      show (s.out.getD (s.out.length - (2 * width - 2)) 0).toNat = pixelAt width s.out r (col + 2)
      rw [pixelAt, hlength,
        show (r + 2) * width + col - (2 * width - 2) = r * width + (col + 2) by omega]
    · rw [if_neg hright]
      refine ⟨_, rfl, rfl, rfl, hleft, fun _ => htop, fun _ => htopLeft, fun _ hcol' => ?_⟩
      exact absurd hcol' (by omega)
  · have hcol' := hcol (by omega)
    have hlp := outp_run (s := s) (i := -2) (k := 2) rfl (by omega) (by omega)
    rw [readNeighbours, bind_run_ok hlp, modify_bind_run, if_neg hrow]
    refine ⟨_, rfl, rfl, rfl, fun _ => ?_, fun h => absurd h (by omega),
      fun h => absurd h (by omega), fun h => absurd h (by omega)⟩
    show (s.out.getD (s.out.length - 2) 0).toNat = pixelAt width s.out row (col - 2)
    rw [pixelAt, hlength, Nat.add_sub_assoc hcol']

theorem predict_run (hwidth : 4 ≤ width) (hcol : row < 2 → 2 ≤ col) (h : Sees width row col s) :
    ∃ s', predict width row col s = some (.ok (estimate width s.out row col : Int), s') ∧
      s'.out = s.out ∧ s'.bitpos = s.bitpos := by
  rw [predict, get_bind_run, estimate]
  by_cases hrow : row < 2
  · rw [if_pos hrow, if_pos hrow, h.left (hcol hrow)]
    exact ⟨s, rfl, rfl, rfl⟩
  · have htop := h.top (by omega)
    rw [if_neg hrow, if_neg hrow]
    by_cases hleft : col < 2
    · rw [if_pos hleft, if_pos hleft, htop, h.topRight (by omega) (by omega)]
      exact ⟨s, rfl, rfl, rfl⟩
    · have htopLeft := h.topLeft (by omega) (by omega)
      rw [if_neg hleft, if_neg hleft]
      by_cases hright : (col : Int) > width - 3
      · rw [if_pos hright, if_pos (by omega), htop, htopLeft, h.left (by omega)]
        exact ⟨s, rfl, rfl, rfl⟩
      · have hhalf : ∀ x : UInt8, (x >>> 1).toNat = x.toNat / 2 := by
          intro x
          rw [UInt8.toNat_shiftRight]
          exact Nat.shiftRight_eq_div_pow x.toNat 1
        rw [if_neg hright, if_neg (by omega), modify_bind_run, get_bind_run, hhalf, hhalf, htop,
          htopLeft, h.left (by omega), h.topRight (by omega) (by omega)]
        exact ⟨_, rfl, rfl, rfl⟩

/-! ### A pixel -/

theorem clamp_of_lt {n : Nat} (h : n < 256) : clamp n = UInt8.ofNat n := by
  rw [clamp, if_neg (by omega), if_neg (by omega), Int.toNat_natCast]

theorem rawPixel_run {b : UInt8} (hcarries : Carries inp s.bitpos (Item.raw b).bits)
    (hbits : s.bitpos + 8 < 2147483648) :
    rawPixel inp s = some (.ok (), { s with bitpos := s.bitpos + 8, out := s.out ++ [b] }) := by
  have hwindow : window inp s.bitpos = b.toNat := hcarries.window_eq b.toNat_lt
  rw [rawPixel, getCode]
  show (advance 8 >>= fun _ => store (UInt8.ofNat (window inp s.bitpos))) s = _
  rw [bind_run_ok (advance_run hbits), hwindow, UInt8.ofNat_toNat]
  rfl

theorem rawPixel_stuck (hbits : ¬ s.bitpos + 8 < 2147483648) : rawPixel inp s = none := by
  rw [rawPixel, getCode]
  show (advance 8 >>= fun _ => store (UInt8.ofNat (window inp s.bitpos))) s = none
  exact bind_run_none (advance_stuck hbits)

theorem pixel_delta {d : Delta} (hcarries : Carries inp s.bitpos d.code)
    (hbits : s.bitpos + d.code.length < 2147483648) :
    pixel inp width row col s =
      (readNeighbours width row col >>= fun _ => predict width row col >>= fun estimate =>
        store (clamp (d.val + estimate))) { s with bitpos := s.bitpos + d.code.length } := by
  have htable := precalcTable_delta (window_lt inp s.bitpos) d
    (hcarries.prefix_window (length_delta_code d))
  rw [pixel, getCode]
  show (advance (precalcTable (window inp s.bitpos)).len >>= fun _ => _) s = _
  rw [htable, bind_run_ok (advance_run hbits)]
  rfl

theorem pixel_absolute {v : Fin 32} (hcarries : Carries inp s.bitpos (Item.absolute v).bits) :
    pixel inp width row col s =
      (advance 5 >>= fun _ => advance 5 >>= fun _ => store (UInt8.ofNat (8 * v))) s := by
  obtain ⟨hcode, hvalue⟩ := carries_append.mp hcarries
  have htable := precalcTable_absolute (window_lt inp s.bitpos)
    (hcode.prefix_window (by decide))
  have hand := and_f8_of_prefix (window_lt inp (s.bitpos + 5)) v
    (hvalue.prefix_window (by rw [length_bitsOf]; decide))
  rw [pixel, getCode]
  show (advance (precalcTable (window inp s.bitpos)).len >>= fun _ => _) s = _
  rw [htable]
  by_cases hbits : s.bitpos + 5 < 2147483648
  · rw [bind_run_ok (advance_run hbits), bind_run_ok (advance_run hbits)]
    show (advance 5 >>= fun _ => store (clamp ((window inp (s.bitpos + 5) &&& 0xf8 : Nat) : Int)))
      { s with bitpos := s.bitpos + 5 } = _
    rw [hand, clamp_of_lt (by omega)]
  · rw [bind_run_none (advance_stuck hbits), bind_run_none (advance_stuck hbits)]

variable {x : Item}

/-- **A pixel is decoded as its item says.** -/
theorem pixel_run (hwidth : 4 ≤ width) (hlength : s.out.length = row * width + col)
    (hrow : s.out.length / width = row) (hcol : s.out.length % width = col)
    (hraw : row < 2 → 2 ≤ col) (hx : ¬ x.IsRaw) (hsafe : row = 2 → col < 2 → x.IsAbsolute)
    (hcarries : Carries inp s.bitpos x.bits) (hbits : s.bitpos + x.bits.length < 2147483648) :
    ∃ s', pixel inp width row col s = some (.ok (), s') ∧
      s'.out = s.out ++ [x.value width s.out] ∧ s'.bitpos = s.bitpos + x.bits.length := by
  cases x with
  | raw b => exact absurd ⟨b, rfl⟩ hx
  | relative d =>
    have hin : ¬ (row = 2 ∧ col < 2) := by
      intro h
      obtain ⟨v, hv⟩ := hsafe h.1 h.2
      cases hv
    rw [pixel_delta hcarries hbits]
    obtain ⟨s₁, hrun₁, hout₁, hpos₁, hsees⟩ := readNeighbours_run
      (s := { s with bitpos := s.bitpos + d.code.length }) hwidth hlength hraw hin
    obtain ⟨s₂, hrun₂, hout₂, hpos₂⟩ := predict_run hwidth hraw hsees
    rw [bind_run_ok hrun₁, bind_run_ok hrun₂, hout₁]
    refine ⟨_, rfl, ?_, hpos₂.trans hpos₁⟩
    show s₂.out ++ _ = _
    rw [hout₂, hout₁, Item.value, hrow, hcol]
  | absolute v =>
    have hlengthBits : (Item.absolute v).bits.length = 10 := by
      rw [Item.bits, List.length_append, length_bitsOf]
      rfl
    rw [hlengthBits] at hbits ⊢
    have hsecond := advance_run (s := { s with bitpos := s.bitpos + 5 }) (n := 5)
      (show s.bitpos + 5 + 5 < 2147483648 by omega)
    rw [pixel_absolute hcarries, bind_run_ok (advance_run (by omega)), bind_run_ok hsecond]
    exact ⟨_, rfl, rfl, rfl⟩

/-- Where the bits are too many, or the top left neighbour is missing, a pixel is not decoded. -/
theorem pixel_stuck (hlength : s.out.length = row * width + col) (hx : ¬ x.IsRaw)
    (hcarries : Carries inp s.bitpos x.bits)
    (hnotSafe : ¬ (s.bitpos + x.bits.length < 2147483648 ∧
      (row = 2 → col < 2 → x.IsAbsolute))) :
    pixel inp width row col s = none := by
  cases x with
  | raw b => exact absurd ⟨b, rfl⟩ hx
  | relative d =>
    by_cases hbits : s.bitpos + d.code.length < 2147483648
    · rw [pixel_delta hcarries hbits]
      have hcorner : row = 2 ∧ col < 2 := by
        by_contra hnot
        exact hnotSafe ⟨hbits, fun hrow hcol => absurd ⟨hrow, hcol⟩ hnot⟩
      exact bind_run_none (readNeighbours_stuck hlength hcorner.1 hcorner.2)
    · have htable := precalcTable_delta (window_lt inp s.bitpos) d
        (hcarries.prefix_window (length_delta_code d))
      rw [pixel, getCode]
      show (advance (precalcTable (window inp s.bitpos)).len >>= fun _ => _) s = _
      rw [htable]
      exact bind_run_none (advance_stuck hbits)
  | absolute v =>
    have hlengthBits : (Item.absolute v).bits.length = 10 := by
      rw [Item.bits, List.length_append, length_bitsOf]
      rfl
    rw [pixel_absolute hcarries]
    have hbits : ¬ s.bitpos + 10 < 2147483648 := by
      intro h
      exact hnotSafe ⟨hlengthBits ▸ h, fun _ _ => ⟨v, rfl⟩⟩
    by_cases hfive : s.bitpos + 5 < 2147483648
    · rw [bind_run_ok (advance_run hfive)]
      exact bind_run_none (advance_stuck (show ¬ s.bitpos + 5 + 5 < 2147483648 by omega))
    · exact bind_run_none (advance_stuck hfive)

end

/-! ### The picture -/

/-- What is done for the pixel with the number `i`. -/
def place (inp : Nat → UInt8) (width i : Nat) : Comp Decoder Int Unit :=
  if i / width < 2 ∧ i % width < 2 then
    rawPixel inp
  else
    pixel inp width (i / width) (i % width)

section

variable {inp : Nat → UInt8} {width height : Nat}

theorem place_eq {col : Nat} (hcol : col < width) (row : Nat) :
    place inp width (row * width + col) =
      if row < 2 ∧ col < 2 then rawPixel inp else pixel inp width row col := by
  have hdiv : (row * width + col) / width = row := by
    rw [Nat.add_comm, Nat.add_mul_div_right col row (by omega), Nat.div_eq_of_lt hcol,
      Nat.zero_add]
  have hmod : (row * width + col) % width = col := by
    rw [Nat.add_comm, Nat.add_mul_mod_self_right, Nat.mod_eq_of_lt hcol]
  rw [place, hdiv, hmod]

theorem decodeRow_eq (hwidth : 2 ≤ width) (row : Nat) :
    decodeRow inp width row =
      (List.range width).forM fun col => place inp width (row * width + col) := by
  rw [decodeRow]
  have hplaces : (List.range width).forM (fun col => place inp width (row * width + col)) =
      (List.range width).forM fun col =>
        if row < 2 ∧ col < 2 then rawPixel inp else pixel inp width row col :=
    forM_congr fun col hcol => place_eq (List.mem_range.mp hcol) row
  rw [hplaces]
  by_cases hrow : row < 2
  · obtain ⟨w, rfl⟩ : ∃ w, width = w + 2 := ⟨width - 2, by omega⟩
    rw [if_pos hrow, List.range_eq_range', List.range'_succ, List.range'_succ]
    have hrest : (List.range' 2 w).forM (pixel inp (w + 2) row) =
        (List.range' 2 w).forM fun col =>
          if row < 2 ∧ col < 2 then rawPixel inp else pixel inp (w + 2) row col := by
      refine forM_congr fun col hcol => ?_
      have hle := (List.mem_range'_1.mp hcol).1
      rw [if_neg fun h => absurd h.2 (by omega)]
    show (rawPixel inp >>= fun _ => rawPixel inp >>= fun _ => (List.range' 2 w).forM _) = _
    rw [hrest]
    show _ = ((if row < 2 ∧ 0 < 2 then rawPixel inp else pixel inp (w + 2) row 0) >>= fun _ =>
      (if row < 2 ∧ 1 < 2 then rawPixel inp else pixel inp (w + 2) row 1) >>= fun _ => _)
    rw [if_pos ⟨hrow, by omega⟩, if_pos ⟨hrow, by omega⟩]
  · rw [if_neg hrow, List.range_eq_range']
    refine forM_congr fun col _ => ?_
    rw [if_neg fun h => hrow h.1]

theorem decompress_eq (hwidth : 2 ≤ width) :
    decompress inp width height = (List.range (height * width)).forM (place inp width) := by
  rw [decompress, ← forM_range_mul]
  exact forM_congr fun row _ => decodeRow_eq hwidth row

variable {stream : Stream width height}

/-- The pixel with the number `i` has a code that can be decoded: the bits up to its end can be
counted, and the first two of the third row do not look at their neighbours. -/
def SafePixel (stream : Stream width height) (i : Nat) : Prop :=
  (bitsOfItems (stream.items.take (i + 1))).length < 2147483648 ∧
    ∀ h : i < stream.items.length, i / width = 2 → i % width < 2 → stream.items[i].IsAbsolute

/-- The first `i` pixels have been decoded. -/
structure Holds (stream : Stream width height) (i : Nat) (s : Decoder) : Prop where
  out : s.out = decoded width (stream.items.take i)
  bitpos : s.bitpos = (bitsOfItems (stream.items.take i)).length

theorem bitsOfItems_take_succ {items : List Item} {i : Nat} (h : i < items.length) :
    bitsOfItems (items.take (i + 1)) = bitsOfItems (items.take i) ++ items[i].bits := by
  rw [List.take_succ_eq_append_getElem h, bitsOfItems_append]
  exact congrArg _ (List.flatMap_singleton Item.bits items[i])

theorem Holds.length_out {i : Nat} {s : Decoder} (h : Holds stream i s)
    (hi : i ≤ stream.items.length) : s.out.length = i := by
  rw [h.out, length_decoded, List.length_take, Nat.min_eq_left hi]

theorem Holds.carries {i : Nat} {s : Decoder} (h : Holds stream i s)
    (hi : i < stream.items.length) (hcarries : Carries inp 0 (bitsOfItems stream.items)) :
    Carries inp s.bitpos stream.items[i].bits := by
  rw [← List.take_append_drop (i + 1) stream.items, bitsOfItems_append] at hcarries
  have hfront := (carries_append.mp hcarries).1
  rw [bitsOfItems_take_succ hi] at hfront
  have hitem := (carries_append.mp hfront).2
  rwa [Nat.zero_add, ← h.bitpos] at hitem

theorem Holds.next {i : Nat} {s s' : Decoder} (h : Holds stream i s) (hi : i < stream.items.length)
    (hout : s'.out = s.out ++ [stream.items[i].value width s.out])
    (hbitpos : s'.bitpos = s.bitpos + stream.items[i].bits.length) : Holds stream (i + 1) s' where
  out := by rw [hout, List.take_succ_eq_append_getElem hi, decoded_append, h.out]
  bitpos := by rw [hbitpos, bitsOfItems_take_succ hi, List.length_append, h.bitpos]

/-- What is left for a pixel of the first two columns of the first two rows. -/
theorem Holds.raw {i : Nat} {s : Decoder} (h : Holds stream i s) (hi : i < stream.items.length)
    (hcarries : Carries inp 0 (bitsOfItems stream.items))
    (hplace : i / width < 2 ∧ i % width < 2) :
    (SafePixel stream i → ∃ s', place inp width i s = some (.ok (), s') ∧
      Holds stream (i + 1) s') ∧ (¬ SafePixel stream i → place inp width i s = none) := by
  obtain ⟨b, hb⟩ := (stream.raw_iff i hi).mpr hplace
  have hitem := h.carries hi hcarries
  have hbits : (bitsOfItems (stream.items.take (i + 1))).length = s.bitpos + 8 := by
    rw [bitsOfItems_take_succ hi, List.length_append, h.bitpos, hb, Item.bits, length_bitsOf]
  rw [place, if_pos hplace, SafePixel, hbits]
  constructor
  · intro hsafe
    refine ⟨_, rawPixel_run (hb ▸ hitem) hsafe.1, h.next hi ?_ ?_⟩
    · rw [hb]
      rfl
    · rw [hb, Item.bits, length_bitsOf]
  · intro hnotSafe
    refine rawPixel_stuck fun hfew => hnotSafe ⟨hfew, fun _ hrow => ?_⟩
    omega

theorem Holds.coded {i : Nat} {s : Decoder} (h : Holds stream i s) (hi : i < stream.items.length)
    (hwidth : 4 ≤ width) (hcarries : Carries inp 0 (bitsOfItems stream.items))
    (hplace : ¬ (i / width < 2 ∧ i % width < 2)) :
    (SafePixel stream i → ∃ s', place inp width i s = some (.ok (), s') ∧
      Holds stream (i + 1) s') ∧ (¬ SafePixel stream i → place inp width i s = none) := by
  have hraw : ¬ stream.items[i].IsRaw := fun hx => hplace ((stream.raw_iff i hi).mp hx)
  have hitem := h.carries hi hcarries
  have hlength := h.length_out (Nat.le_of_lt hi)
  have hdivision : s.out.length = i / width * width + i % width := by
    rw [hlength, Nat.mul_comm, Nat.div_add_mod]
  have hbits : (bitsOfItems (stream.items.take (i + 1))).length =
      s.bitpos + stream.items[i].bits.length := by
    rw [bitsOfItems_take_succ hi, List.length_append, h.bitpos]
  rw [place, if_neg hplace, SafePixel, hbits]
  constructor
  · intro hsafe
    obtain ⟨s', hrun, hout, hbitpos⟩ := pixel_run hwidth hdivision (by rw [hlength])
      (by rw [hlength]) (by omega) hraw (hsafe.2 hi) hitem hsafe.1
    exact ⟨s', hrun, h.next hi hout hbitpos⟩
  · intro hnotSafe
    exact pixel_stuck hdivision hraw hitem fun hsafe => hnotSafe ⟨hsafe.1, fun _ => hsafe.2⟩

/-- The whole picture is decoded, or some pixel is not safe and the function is stuck. -/
theorem decompress_cases (hwidth : 4 ≤ width)
    (hcarries : Carries inp 0 (bitsOfItems stream.items)) :
    ((∀ i < height * width, SafePixel stream i) ∧
      ∃ s, decompress inp width height start = some (.ok (), s) ∧
        Holds stream (height * width) s) ∨
    ((∃ i < height * width, ¬ SafePixel stream i) ∧ decompress inp width height start = none) := by
  have hlength := stream.length_items
  have hplace : ∀ i s, i < height * width → Holds stream i s →
      (SafePixel stream i → ∃ s', place inp width i s = some (.ok (), s') ∧
        Holds stream (i + 1) s') ∧ (¬ SafePixel stream i → place inp width i s = none) := by
    intro i s hi h
    by_cases hraw : i / width < 2 ∧ i % width < 2
    · exact h.raw (by omega) hcarries hraw
    · exact h.coded (by omega) hwidth hcarries hraw
  rw [decompress_eq (by omega)]
  exact forM_range_cases (I := Holds stream) ⟨rfl, rfl⟩
    (fun i s hi h => (hplace i s hi h).1) fun i s hi h => (hplace i s hi h).2

/-- Every pixel is safe where all bits can be counted and the first two pixels of the third row do
not look at their neighbours. -/
theorem safePixel_iff :
    (∀ i < height * width, SafePixel stream i) ↔
      (height * width = 0 ∨ (bitsOfItems stream.items).length < 2147483648) ∧
        ∀ i (h : i < stream.items.length), i / width = 2 → i % width < 2 →
          stream.items[i].IsAbsolute := by
  have hlength := stream.length_items
  constructor
  · intro hsafe
    refine ⟨?_, fun i hi hrow hcol => (hsafe i (by omega)).2 hi hrow hcol⟩
    by_cases hempty : height * width = 0
    · exact Or.inl hempty
    · have hlast := (hsafe (height * width - 1) (by omega)).1
      rw [Nat.sub_add_cancel (by omega), List.take_of_length_le (by omega)] at hlast
      exact Or.inr hlast
  · intro h i hi
    refine ⟨?_, fun hi' hrow hcol => h.2 i hi' hrow hcol⟩
    rcases h.1 with hempty | hbits
    · omega
    · refine Nat.lt_of_le_of_lt ?_ hbits
      rw [← List.take_append_drop (i + 1) stream.items, bitsOfItems_append, List.length_append,
        List.take_append_drop]
      exact Nat.le_add_right _ _

end

/-- **A picture is decoded just as long as its bits can be counted, and the first two pixels of its
third row are given by their values.** -/
theorem decompress_iff {width height : Nat} (hwidth : 4 ≤ width) (hheight : 1 ≤ height)
    (stream : Stream width height) (inp : Nat → UInt8)
    (hcarries : Carries inp 0 (bitsOfItems stream.items)) :
    Decodes stream inp ↔
      (bitsOfItems stream.items).length < 2147483648 ∧
        ∀ i (h : i < stream.items.length), i / width = 2 → i % width < 2 →
          stream.items[i].IsAbsolute := by
  have hlength := stream.length_items
  have hpositive : 0 < height * width := Nat.mul_pos hheight (by omega)
  have hiff : (∀ i < height * width, SafePixel stream i) ↔ _ := safePixel_iff
  rw [or_iff_right (by omega)] at hiff
  rw [← hiff]
  rcases decompress_cases hwidth hcarries with hdone | hstuck
  · obtain ⟨hsafe, s, hrun, hs⟩ := hdone
    refine ⟨fun _ => hsafe, fun _ => ⟨s, hrun, ?_, ?_, ?_⟩⟩
    · rw [hs.length_out (by omega), Nat.mul_comm]
    · rw [hs.out, List.take_of_length_le (by omega)]
    · rw [hs.bitpos, List.take_of_length_le (by omega)]
  · obtain ⟨hnotSafe, hrun⟩ := hstuck
    constructor
    · intro hdecodes
      obtain ⟨s, hok, _⟩ := hdecodes
      rw [hrun] at hok
      cases hok
    · intro hsafe
      obtain ⟨i, hi, hnot⟩ := hnotSafe
      exact absurd (hsafe i hi) hnot

/-- A picture of one row. -/
def oneRow : Stream 4 1 where
  items := [.raw 0, .raw 0, .relative .same, .relative .same]
  length_items := rfl
  raw_iff := by decide

theorem decompress_oneRow :
    Carries (fun _ => 0) 0 (bitsOfItems oneRow.items) ∧
      (Decodes oneRow (fun _ => 0) ↔
        (bitsOfItems oneRow.items).length < 2147483648 ∧
          ∀ i (h : i < oneRow.items.length), i / 4 = 2 → i % 4 < 2 →
            oneRow.items[i].IsAbsolute) :=
  ⟨by decide, decompress_iff (by decide) (by decide) oneRow _ (by decide)⟩

/-- A picture of three rows without differences. -/
def threeRows : Stream 4 3 where
  items := [.raw 0, .raw 0, .relative .same, .relative .same,
    .raw 0, .raw 0, .relative .same, .relative .same,
    .relative .same, .relative .same, .relative .same, .relative .same]
  length_items := rfl
  raw_iff := by decide

/-- The top left neighbour of its third row is read in front of the picture. -/
theorem threeRows_stuck :
    Carries (fun _ => 0) 0 (bitsOfItems threeRows.items) ∧ ¬ Decodes threeRows (fun _ => 0) := by
  have hstuck : decompress (fun _ => 0) 4 3 start = none := by decide +kernel
  refine ⟨by decide +kernel, fun h => ?_⟩
  obtain ⟨s, hrun, _⟩ := h
  rw [hstuck] at hrun
  cases hrun

end GPhoto2.Mars
