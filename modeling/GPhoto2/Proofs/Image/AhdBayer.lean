import GPhoto2.Proofs.Image.Bayer

/-!
# `GPhoto2.Proofs.Image.AhdBayer`: reads outside the homogeneity buffers

The windows are never left: `doGreenCtrRow_ends`, `doRbCtrRow_ends` and `getDiffsRow2_ends` say
that the parts of `gp_ahd_interpolate` are defined for every image of at least two columns and
three rows.

The choice algorithm sums scores of nine pixels, from column -1 to column `w`. In the first row
the score of column -1 is in front of the buffer (`homoSum_left`), and so no run has a defined
outcome (`gpAhdInterpolate_never`).
-/

set_option autoImplicit false

namespace GPhoto2

open Lib
open List (mem_cons mem_cons_of_mem mem_cons_self mem_filter mem_range not_mem_nil)
open Option (bind_eq_bind bind_none bind_some)

/-! ### Bytes -/

theorem byteAt_ends {buffer : List UInt8} {i : Int} (h0 : 0 ≤ i) (hlt : i < buffer.length) :
    ∃ v, byteAt buffer i = some v := by
  have hindex : i.toNat < buffer.length := by omega
  unfold byteAt
  rw [if_pos h0, List.getElem?_eq_getElem hindex]
  exact ⟨_, rfl⟩

theorem put_ends {buffer : List UInt8} {i n : Nat} (hlength : buffer.length = n) (hi : i < n)
    (v : UInt8) : ∃ buffer', put buffer i v = some buffer' ∧ buffer'.length = n := by
  refine ⟨buffer.set i v, if_pos (by omega), ?_⟩
  rw [List.length_set]
  exact hlength

theorem divide_ends (value : Int) {div : Int} (h : div ≠ 0) : ∃ q, divide value div = some q :=
  ⟨_, if_neg h⟩

theorem copyBytes_ends {dst src : List UInt8} {off start n m : Nat} (hdst : dst.length = m)
    (hsrc : start + n ≤ src.length) (hoff : off + n ≤ m) :
    ∃ dst', copyBytes dst off src start n = some dst' ∧ dst'.length = m := by
  refine ⟨_, if_pos ⟨hsrc, by omega⟩, ?_⟩
  simp only [List.length_append, List.length_take, List.length_drop]
  omega

/-- Both buffers have a length. -/
structure BothWays.Sized (s : BothWays) (n : Nat) : Prop where
  horizontal : s.horizontal.length = n
  vertical : s.vertical.length = n

theorem BothWays.Sized.copy {s : BothWays} {n off start k : Nat} {src : List UInt8}
    (h : s.Sized n) (hsrc : start + k ≤ src.length) (hoff : off + k ≤ n) :
    ∃ s', s.copy off src start k = some s' ∧ s'.Sized n := by
  obtain ⟨hbuf, hrun, hlength⟩ := copyBytes_ends h.horizontal hsrc hoff
  obtain ⟨vbuf, hrun', hlength'⟩ := copyBytes_ends h.vertical hsrc hoff
  refine ⟨⟨hbuf, vbuf⟩, ?_, hlength, hlength'⟩
  unfold BothWays.copy
  rw [hrun, hrun']
  rfl

theorem BothWays.Sized.shift {s : BothWays} {n row k : Nat} (h : s.Sized n)
    (hfits : row + k ≤ n) : ∃ s', s.shift row k = some s' ∧ s'.Sized n := by
  have hfront : 0 + k ≤ n := by omega
  obtain ⟨hbuf, hrun, hlength⟩ :=
    copyBytes_ends h.horizontal (by rw [h.horizontal]; exact hfits) hfront
  obtain ⟨vbuf, hrun', hlength'⟩ :=
    copyBytes_ends h.vertical (by rw [h.vertical]; exact hfits) hfront
  refine ⟨⟨hbuf, vbuf⟩, ?_, hlength, hlength'⟩
  unfold BothWays.shift
  rw [hrun, hrun']
  rfl

section
variable {w h y off x : Nat} {p : Nat × Nat × Nat × Nat}

/-! ### `do_rb_ctr_row` -/

theorem filter_ne_nil {β : Type} {cells : List (Bool × β)} {cell : Bool × β}
    (hmem : cell ∈ cells) (hkeep : cell.1 = true) : cells.filter Prod.fst ≠ [] :=
  List.ne_nil_of_mem (mem_filter.mpr ⟨hmem, hkeep⟩)

/-- Of the pixels of a window one is in the image, and no other is read. -/
theorem rbPoints_cases {color : Nat} {cells : List (Bool × Nat × Nat)} (hw : 2 ≤ w) (hh : 2 ≤ h)
    (hx : x < w) (hy : y < h) (hcells : rbPoints p w h y x color = some cells) :
    cells.filter Prod.fst ≠ [] ∧
      ∀ cell ∈ cells, cell.1 = true → cell.2.1 < w ∧ cell.2.2 < 3 := by
  unfold rbPoints at hcells
  simp only at hcells
  split at hcells
  · obtain rfl := Option.some.inj hcells
    constructor
    · by_cases hleft : 0 < x
      · by_cases habove : 0 < y
        · exact filter_ne_nil mem_cons_self (decide_eq_true ⟨hleft, habove⟩)
        · refine filter_ne_nil (mem_cons_of_mem _ mem_cons_self) ?_
          exact decide_eq_true ⟨hleft, by omega⟩
      · by_cases habove : 0 < y
        · refine filter_ne_nil
            (mem_cons_of_mem _ (mem_cons_of_mem _ mem_cons_self)) ?_
          exact decide_eq_true ⟨by omega, habove⟩
        · refine filter_ne_nil (mem_cons_of_mem _
            (mem_cons_of_mem _ (mem_cons_of_mem _ mem_cons_self))) ?_
          exact decide_eq_true ⟨by omega, by omega⟩
    · intro cell hcell hkeep
      simp only [mem_cons, not_mem_nil, or_false] at hcell
      rcases hcell with rfl | rfl | rfl | rfl <;> simp only [decide_eq_true_eq] at hkeep ⊢ <;> omega
  · split at hcells
    · obtain rfl := Option.some.inj hcells
      constructor
      · by_cases habove : 0 < y
        · exact filter_ne_nil mem_cons_self (decide_eq_true habove)
        · refine filter_ne_nil (mem_cons_of_mem _ mem_cons_self) ?_
          exact decide_eq_true (by omega)
      · intro cell hcell hkeep
        simp only [mem_cons, not_mem_nil, or_false] at hcell
        rcases hcell with rfl | rfl <;> simp only [decide_eq_true_eq] at hkeep ⊢ <;> omega
    · split at hcells
      · obtain rfl := Option.some.inj hcells
        constructor
        · by_cases hleft : 0 < x
          · exact filter_ne_nil mem_cons_self (decide_eq_true hleft)
          · refine filter_ne_nil (mem_cons_of_mem _ mem_cons_self) ?_
            exact decide_eq_true (by omega)
        · intro cell hcell hkeep
          simp only [mem_cons, not_mem_nil, or_false] at hcell
          rcases hcell with rfl | rfl <;> simp only [decide_eq_true_eq] at hkeep ⊢ <;> omega
      · cases hcells

theorem window_byte {window : List UInt8} {x y c : Nat} (hlength : off + 9 * w ≤ window.length)
    (hx : x < w) (hy : y < 3) (hc : c < 3) :
    off + ad x y w + c < window.length ∧
      ∃ v, byteAt window (off + ad x y w + c) = some v := by
  have hlt := ad_lt hx hy hc
  have hindex : off + ad x y w + c < window.length := by omega
  exact ⟨hindex, byteAt_ends (by omega) (by exact_mod_cast hindex)⟩

theorem rbPixel_ends (p : Nat × Nat × Nat × Nat) {color n : Nat} {window : List UInt8}
    (hw : 2 ≤ w) (hh : 2 ≤ h) (hx : x < w) (hy : y < h) (hc : color < 3)
    (hlength : window.length = n) (hoff : off + 9 * w ≤ n) :
    ∃ window', rbPixel p w h y off x color window = some window' ∧ window'.length = n := by
  have hfits : off + 9 * w ≤ window.length := by omega
  unfold rbPixel
  cases hcells : rbPoints p w h y x color with
  | none => exact ⟨window, rfl, hlength⟩
  | some cells =>
    obtain ⟨hne, hinside⟩ := rbPoints_cases hw hh hx hy hcells
    have hdiff : ∀ cell ∈ cells.filter Prod.fst,
        ∃ d, colourDifference window off w color cell = some d := by
      intro cell hcell
      obtain ⟨hmem, hkeep⟩ := mem_filter.mp hcell
      obtain ⟨hcx, hcy⟩ := hinside cell hmem hkeep
      obtain ⟨-, v, hv⟩ := window_byte hfits hcx hcy hc
      obtain ⟨-, g, hg⟩ := window_byte hfits hcx hcy (show green < 3 by decide)
      unfold colourDifference
      rw [hv, hg]
      exact ⟨_, rfl⟩
    obtain ⟨values, hvalues, hcount⟩ := mapM_ends hdiff
    have hpos := List.length_pos_iff.mpr hne
    obtain ⟨mean, hmean⟩ := divide_ends values.sum (show (values.length : Int) ≠ 0 by omega)
    obtain ⟨-, g, hg⟩ := window_byte hfits hx (show 1 < 3 by decide) (show green < 3 by decide)
    obtain ⟨hindex, -⟩ := window_byte hfits hx (show 1 < 3 by decide) hc
    obtain ⟨window', hput, hlength'⟩ :=
      put_ends hlength (show off + ad x 1 w + color < n by omega) (clamp (g + mean))
    refine ⟨window', ?_, hlength'⟩
    simp only [hvalues, hmean, hg, bind_eq_bind, bind_some]
    exact hput

theorem doRbCtrRow_ends (p : Nat × Nat × Nat × Nat) {n : Nat} {s : BothWays} (hw : 2 ≤ w)
    (hh : 2 ≤ h) (hy : y < h) (hs : s.Sized n) (hoff : off + 9 * w ≤ n) :
    ∃ s', doRbCtrRow s off w h y p = some s' ∧ s'.Sized n := by
  have hrow : ∀ {window : List UInt8}, window.length = n →
      ∃ window', rbRow p w h y off window = some window' ∧ window'.length = n := by
    intro window hlength
    refine foldlM_ends ?_ hlength
    intro window hlength x hx
    have hx := mem_range.mp hx
    obtain ⟨window₁, hrun₁, hlength₁⟩ :=
      rbPixel_ends p hw hh hx hy (show red < 3 by decide) hlength hoff
    obtain ⟨window₂, hrun₂, hlength₂⟩ :=
      rbPixel_ends p hw hh hx hy (show blue < 3 by decide) hlength₁ hoff
    refine ⟨window₂, ?_, hlength₂⟩
    simp only [hrun₁, bind_eq_bind, bind_some]
    exact hrun₂
  obtain ⟨hbuf, hrun, hlength⟩ := hrow hs.horizontal
  obtain ⟨vbuf, hrun', hlength'⟩ := hrow hs.vertical
  refine ⟨⟨hbuf, vbuf⟩, ?_, hlength, hlength'⟩
  unfold doRbCtrRow
  rw [hrun, hrun']
  rfl

/-! ### `do_green_ctr_row` -/

variable {image : List UInt8}

/-- A mean whose bytes are in the image, with weights that do not cancel out. -/
theorem weightedMean_ends {terms : List (Bool × Int × Nat)}
    (hinside : ∀ term ∈ terms, term.1 = true → term.2.2 < image.length)
    (hweights : ((terms.filter Prod.fst).map fun term => term.2.1).sum ≠ 0) :
    ∃ v, weightedMean image terms = some v := by
  have hread : ∀ term ∈ terms.filter Prod.fst,
      ∃ v, (byteAt image (term.2.2 : Nat)).map (term.2.1 * ·) = some v := by
    intro term hterm
    obtain ⟨hmem, hkeep⟩ := mem_filter.mp hterm
    have hlt := hinside term hmem hkeep
    obtain ⟨v, hv⟩ := byteAt_ends (show (0 : Int) ≤ (term.2.2 : Nat) by omega)
      (show ((term.2.2 : Nat) : Int) < image.length by omega)
    rw [hv]
    exact ⟨_, rfl⟩
  obtain ⟨values, hvalues, -⟩ := mapM_ends hread
  obtain ⟨q, hq⟩ := divide_ends values.sum hweights
  refine ⟨q, ?_⟩
  unfold weightedMean
  simp only [hvalues, bind_eq_bind, bind_some]
  exact hq

theorem green_weights (a b c d : Bool) (hb : b = true → a = true) (hd : d = true → c = true)
    (i₀ i₁ i₂ i₃ i₄ : Nat) :
    ((([(true, 2, i₀), (a, 2, i₁), (b, -1, i₂), (c, 2, i₃), (d, -1, i₄)] :
      List (Bool × Int × Nat)).filter Prod.fst).map fun term => term.2.1).sum ≠ 0 := by
  cases a <;> cases b <;> cases c <;> cases d <;> simp at hb hd ⊢

/-- A green estimate along one line, of which `i` is the place of the pixel. -/
theorem greenEstimate_ends {image : List UInt8} {at' : Nat → Nat → Nat} {i m own : Nat}
    (hat : ∀ j c, j < m → c < 3 → at' j c < image.length) (hi : i < m) (hown : own < 3) :
    ∃ v, weightedMean image [(true, 2, at' i own), (decide (i + 1 < m), 2, at' (i + 1) green),
      (decide (i + 2 < m), -1, at' (i + 2) own), (decide (0 < i), 2, at' (i - 1) green),
      (decide (1 < i), -1, at' (i - 2) own)] = some v := by
  have hgreen : green < 3 := by decide
  refine weightedMean_ends ?_ ?_
  · intro term hterm hkeep
    simp only [mem_cons, not_mem_nil, or_false] at hterm
    rcases hterm with rfl | rfl | rfl | rfl | rfl <;> simp only [decide_eq_true_eq] at hkeep ⊢
    · exact hat _ _ hi hown
    · exact hat _ _ hkeep hgreen
    · exact hat _ _ hkeep hown
    · exact hat _ _ (by omega) hgreen
    · exact hat _ _ (by omega) hown
  · refine green_weights _ _ _ _ ?_ ?_ _ _ _ _ _
    · intro hfar
      exact decide_eq_true (by have := of_decide_eq_true hfar; omega)
    · intro hfar
      exact decide_eq_true (by have := of_decide_eq_true hfar; omega)

theorem greenRowTerms_ends {own : Nat} (hlength : image.length = 3 * (w * h))
    (hx : x < w) (hy : y < h) (hown : own < 3) :
    ∃ v, weightedMean image (greenRowTerms w x y own) = some v :=
  @greenEstimate_ends image (fun j c => ad j y w + c) x w own
    (fun _ _ hx' hc => hlength ▸ ad_lt hx' hy hc) hx hown

theorem greenColumnTerms_ends {own : Nat}
    (hlength : image.length = 3 * (w * h)) (hx : x < w) (hy : y < h) (hown : own < 3) :
    ∃ v, weightedMean image (greenColumnTerms w h x y own) = some v :=
  @greenEstimate_ends image (fun j c => ad x j w + c) y h own
    (fun _ _ hy' hc => hlength ▸ ad_lt hx hy' hc) hy hown

theorem doGreenCtrRow_ends (p : Nat × Nat × Nat × Nat) {n : Nat}
    {s : BothWays} (hlength : image.length = 3 * (w * h)) (hy : y < h) (hs : s.Sized n)
    (hoff : off + 6 * w ≤ n) :
    ∃ s', doGreenCtrRow image s off w h y p = some s' ∧ s'.Sized n := by
  refine foldlM_ends ?_ hs
  intro s hs x hx
  have hx := mem_range.mp hx
  unfold greenPixel
  simp only
  split
  · have hown : (if bayerIndex x y = p.1 then red else blue) < 3 := by
      split <;> decide
    obtain ⟨v, hv⟩ := greenRowTerms_ends hlength hx hy hown
    obtain ⟨v', hv'⟩ := greenColumnTerms_ends hlength hx hy hown
    have hlt := ad_lt hx (show 1 < 2 by decide) (show green < 3 by decide)
    have hindex : off + ad x 1 w + green < n := by omega
    obtain ⟨hbuf, hput, hlen⟩ := put_ends hs.horizontal hindex (clamp v)
    obtain ⟨vbuf, hput', hlen'⟩ := put_ends hs.vertical hindex (clamp v')
    refine ⟨⟨hbuf, vbuf⟩, ?_, hlen, hlen'⟩
    simp only [hv, hv', hput, hput', bind_eq_bind, bind_some]
  · exact ⟨s, rfl, hs⟩

/-! ### `get_diffs_row2` -/

theorem dRGB_ends {rgb : List UInt8} {i1 i2 : Int} (h1 : 0 ≤ i1) (h1' : i1 + 3 ≤ rgb.length)
    (h2 : 0 ≤ i2) (h2' : i2 + 3 ≤ rgb.length) : ∃ d, dRGB i1 i2 rgb = some d := by
  have hat : ∀ {i : Int}, 0 ≤ i → i + 3 ≤ rgb.length → ∀ c : Nat, c < 3 →
      ∃ v, byteAt rgb (i + c) = some v :=
    fun h0 hle c hc => byteAt_ends (by omega) (by omega)
  obtain ⟨r1, hr1⟩ := hat h1 h1' red (by decide)
  obtain ⟨r2, hr2⟩ := hat h2 h2' red (by decide)
  obtain ⟨g1, hg1⟩ := hat h1 h1' green (by decide)
  obtain ⟨g2, hg2⟩ := hat h2 h2' green (by decide)
  obtain ⟨b1, hb1⟩ := hat h1 h1' blue (by decide)
  obtain ⟨b2, hb2⟩ := hat h2 h2' blue (by decide)
  unfold dRGB
  simp only [hr1, hr2, hg1, hg2, hb1, hb2, bind_eq_bind, bind_some]
  exact ⟨_, rfl⟩

/-- The row that is scored has a row before it and one behind it, and no pixel of it that is
scored is at its ends. -/
theorem getDiffsRow2_ends {s homo : BothWays} (hs : s.Sized (18 * w)) (hhomo : homo.Sized (3 * w)) :
    ∃ homo', getDiffsRow2 homo s w = some homo' ∧ homo'.Sized (3 * w) := by
  refine foldlM_ends ?_ hhomo
  intro homo hhomo j hj
  obtain ⟨k, hk, rfl⟩ := List.mem_map.mp hj
  have hk := mem_range.mp hk
  have hd : ∀ {buffer : List UInt8}, buffer.length = 18 * w → ∀ i2 : Int,
      i2 ∈ [3 * ((k + 1 : Nat) : Int) + 9 * w - 3, 3 * ((k + 1 : Nat) : Int) + 9 * w + 3,
        3 * ((k + 1 : Nat) : Int) + 9 * w - 3 * w, 3 * ((k + 1 : Nat) : Int) + 9 * w + 3 * w] →
      ∃ d, dRGB (3 * ((k + 1 : Nat) : Int) + 9 * w) i2 buffer = some d := by
    intro buffer hlength i2 hi2
    simp only [mem_cons, not_mem_nil, or_false] at hi2
    refine dRGB_ends ?_ ?_ ?_ ?_
    · omega
    · omega
    · rcases hi2 with rfl | rfl | rfl | rfl <;> omega
    · rcases hi2 with rfl | rfl | rfl | rfl <;> omega
  have hscore : ∀ {buffer : List UInt8}, buffer.length = 18 * w → ∀ eps : Int,
      ∃ u, score buffer (3 * ((k + 1 : Nat) : Int) + 9 * w) w eps = some u := by
    intro buffer hlength eps
    obtain ⟨ds, hds, -⟩ := mapM_ends fun i2 hi2 => hd hlength i2 hi2
    unfold score
    rw [hds]
    exact ⟨_, rfl⟩
  obtain ⟨left, hleft⟩ := hd hs.horizontal _ mem_cons_self
  obtain ⟨right, hright⟩ := hd hs.horizontal _ (mem_cons_of_mem _ mem_cons_self)
  obtain ⟨above, habove⟩ := hd hs.vertical _
    (mem_cons_of_mem _ (mem_cons_of_mem _ mem_cons_self))
  obtain ⟨below, hbelow⟩ := hd hs.vertical _
    (mem_cons_of_mem _ (mem_cons_of_mem _ (mem_cons_of_mem _ mem_cons_self)))
  obtain ⟨usizeH, husizeH⟩ :=
    hscore hs.horizontal (min (max left right) (max above below))
  obtain ⟨usizeV, husizeV⟩ := hscore hs.vertical (min (max left right) (max above below))
  have hindex : k + 1 + 2 * w < 3 * w := by omega
  obtain ⟨hbuf, hput, hlen⟩ := put_ends hhomo.horizontal hindex usizeH
  obtain ⟨vbuf, hput', hlen'⟩ := put_ends hhomo.vertical hindex usizeV
  refine ⟨⟨hbuf, vbuf⟩, ?_, hlen, hlen'⟩
  unfold diffsPixel
  simp only [hleft, hright, habove, hbelow, husizeH, husizeV, hput, hput', bind_eq_bind,
    bind_some]

/-! ### The choice -/

theorem emptyBuffers_sized (n : Nat) : (emptyBuffers n).Sized n :=
  ⟨List.length_replicate, List.length_replicate⟩

theorem ahdStart_ends (p : Nat × Nat × Nat × Nat) (hw : 2 ≤ w) (hh : 3 ≤ h)
    (hlength : image.length = 3 * (w * h)) :
    ∃ s, ahdStart image w h p = some s ∧ s.Sized (18 * w) := by
  have hrows : 9 * w ≤ image.length := by
    have hle := Nat.mul_le_mul_left w hh
    omega
  obtain ⟨s₁, hs₁, hsized⟩ := (emptyBuffers_sized (18 * w)).copy
    (show 0 + 6 * w ≤ image.length by omega) (show 12 * w + 6 * w ≤ 18 * w by omega)
  obtain ⟨s₂, hs₂, hsized⟩ := doGreenCtrRow_ends p hlength (show 0 < h by omega) hsized
    (show 9 * w + 6 * w ≤ 18 * w by omega)
  obtain ⟨s₃, hs₃, hsized⟩ := doGreenCtrRow_ends p hlength (show 1 < h by omega) hsized
    (show 12 * w + 6 * w ≤ 18 * w by omega)
  obtain ⟨s₄, hs₄, hsized⟩ := doRbCtrRow_ends p hw (by omega) (show 0 < h by omega) hsized
    (show 9 * w + 9 * w ≤ 18 * w by omega)
  obtain ⟨s₅, hs₅, hsized⟩ := hsized.shift (show 3 * w + 15 * w ≤ 18 * w by omega)
  obtain ⟨s₆, hs₆, hsized⟩ := hsized.copy
    (show 6 * w + 3 * w ≤ image.length by omega) (show 15 * w + 3 * w ≤ 18 * w by omega)
  obtain ⟨s₇, hs₇, hsized⟩ := doGreenCtrRow_ends p hlength (show 2 < h by omega) hsized
    (show 12 * w + 6 * w ≤ 18 * w by omega)
  obtain ⟨s₈, hs₈, hsized⟩ := doRbCtrRow_ends p hw (by omega) (show 1 < h by omega) hsized
    (show 9 * w + 9 * w ≤ 18 * w by omega)
  obtain ⟨s₉, hs₉, hsized⟩ := hsized.shift (show 3 * w + 15 * w ≤ 18 * w by omega)
  refine ⟨s₉, ?_, hsized⟩
  unfold ahdStart
  simp only [hs₁, hs₂, hs₃, hs₄, hs₅, hs₆, hs₇, hs₈, bind_eq_bind, bind_some]
  exact hs₉

theorem ahdPrepare_ends (p : Nat × Nat × Nat × Nat) {s : AhdState} (hw : 2 ≤ w) (hh : 2 ≤ h)
    (hlength : s.image.length = 3 * (w * h)) (hwindows : s.windows.Sized (18 * w))
    (hhomo : s.homo.Sized (3 * w)) :
    ∃ s', ahdPrepare w h p s y = some s' ∧ s'.image = s.image := by
  have hfill : ∃ windows, (if y + 3 < h
      then s.windows.copy (15 * w) s.image (3 * y * w + 9 * w) (3 * w)
      else s.windows.copy (15 * w) (List.replicate (3 * w) 0) 0 (3 * w)) = some windows ∧
      windows.Sized (18 * w) := by
    split
    · rename_i hrow
      -- Row y + 3 is in the image.
      have hle := Nat.mul_le_mul_left w (Nat.succ_le_of_lt hrow)
      have hsplit : w * (y + 3).succ = y * w + 4 * w := by
        rw [Nat.mul_comm, ← Nat.add_mul]
      have hfits : 3 * y * w + 9 * w + 3 * w ≤ s.image.length := by
        rw [hlength, Nat.mul_assoc 3 y w]
        omega
      exact hwindows.copy hfits (by omega)
    · exact hwindows.copy (by rw [List.length_replicate]; omega) (by omega)
  obtain ⟨s₁, hs₁, hsized⟩ := hfill
  have hgreen : ∃ windows, (if y + 3 < h
      then doGreenCtrRow s.image s₁ (12 * w) w h (y + 3) p else some s₁) = some windows ∧
      windows.Sized (18 * w) := by
    split
    · rename_i hrow
      exact doGreenCtrRow_ends p hlength hrow hsized (by omega)
    · exact ⟨s₁, rfl, hsized⟩
  obtain ⟨s₂, hs₂, hsized⟩ := hgreen
  have hrb : ∃ windows, (if y + 2 < h
      then doRbCtrRow s₂ (9 * w) w h (y + 2) p else some s₂) = some windows ∧
      windows.Sized (18 * w) := by
    split
    · rename_i hrow
      exact doRbCtrRow_ends p hw hh hrow hsized (by omega)
    · exact ⟨s₂, rfl, hsized⟩
  obtain ⟨s₃, hs₃, hsized⟩ := hrb
  obtain ⟨homo, hdiffs, -⟩ := getDiffsRow2_ends hsized hhomo
  refine ⟨⟨s.image, s₃, homo⟩, ?_, rfl⟩
  unfold ahdPrepare
  simp only [hs₁, hs₂, hs₃, hdiffs, bind_eq_bind, bind_some]

theorem homoSum_left (homo : List UInt8) (w : Nat) : homoSum homo w 0 = none := by
  have hfront : byteAt homo (-1 + ((0 : Nat) : Int) + (w : Int) * 0) = none :=
    if_neg (by omega)
  unfold homoSum
  simp only [List.flatMap_cons, List.map_cons, List.cons_append, List.mapM_cons, hfront,
    bind_eq_bind, bind_none]

theorem ahdRow_left (p : Nat × Nat × Nat × Nat) (hw : 0 < w) (s : AhdState) :
    ahdRow w h p s y = none := by
  obtain ⟨n, rfl⟩ : ∃ n, w = n + 1 := ⟨w - 1, by omega⟩
  unfold ahdRow
  cases ahdPrepare (n + 1) h p s y with
  | none => rfl
  | some s =>
    have hchoose : choosePixel s.windows s.homo (n + 1) y s.image 0 = none := by
      unfold choosePixel
      rw [homoSum_left]
      rfl
    rw [List.range_succ_eq_map]
    simp only [List.foldlM_cons, hchoose, bind_eq_bind, bind_some,
      bind_none]

end

/-! ### `gp_ahd_interpolate` -/

/-- What is asked of the interpolation in place: that it is defined, so that no buffer is left
and nothing is divided by zero, and keeps the sample of each sensor. -/
def AhdInPlace (image : List UInt8) (w h : Nat) (tile : BayerTile) : Prop :=
  ∃ image', gpAhdInterpolate image w h tile = some image' ∧ ∀ x y, x < w → y < h →
    image'[ad x y w + colourAt tile x y]? = image[ad x y w + colourAt tile x y]?

/-- `gp_ahd_interpolate` comes to the first pixel of its choice algorithm on every image, and
leaves the homogeneity buffers there. -/
theorem gpAhdInterpolate_never (tile : BayerTile) {w h : Nat} (hw : 2 ≤ w) (hh : 3 ≤ h)
    {image : List UInt8} (hlength : image.length = 3 * (w * h)) :
    (∃ windows s, ahdStart image w h (posCodes tile) = some windows ∧
      ahdPrepare w h (posCodes tile) ⟨image, windows, emptyBuffers (3 * w)⟩ 0 = some s ∧
      homoSum s.homo.horizontal w 0 = none) ∧ ¬AhdInPlace image w h tile := by
  obtain ⟨windows, hstart, hsized⟩ := ahdStart_ends (posCodes tile) hw hh hlength
  obtain ⟨s, hprepare, -⟩ := @ahdPrepare_ends w h 0 (posCodes tile)
    ⟨image, windows, emptyBuffers (3 * w)⟩ hw (by omega) hlength hsized
    (emptyBuffers_sized (3 * w))
  refine ⟨⟨windows, s, hstart, hprepare, homoSum_left _ w⟩, ?_⟩
  intro hclaim
  obtain ⟨image', hrun, -⟩ := hclaim
  obtain ⟨n, rfl⟩ : ∃ n, h = n + 1 := ⟨h - 1, by omega⟩
  unfold gpAhdInterpolate at hrun
  simp only [hstart, List.range_succ_eq_map, List.foldlM_cons,
    ahdRow_left (posCodes tile) (show 0 < w by omega), bind_eq_bind, bind_some,
    bind_none] at hrun
  cases hrun

theorem gpAhdInterpolate_never_small :
    (∃ windows s, ahdStart (List.replicate 18 0) 2 3 (posCodes .rggb) = some windows ∧
      ahdPrepare 2 3 (posCodes .rggb) ⟨List.replicate 18 0, windows, emptyBuffers (3 * 2)⟩ 0 =
        some s ∧
      homoSum s.homo.horizontal 2 0 = none) ∧ ¬AhdInPlace (List.replicate 18 0) 2 3 .rggb :=
  gpAhdInterpolate_never .rggb (by decide) (by decide) rfl

/-- An image of two columns and three rows. -/
theorem small_image_undefined :
    ¬∀ (tile : BayerTile) (w h : Nat) (image : List UInt8), 2 ≤ w → 3 ≤ h →
      image.length = 3 * (w * h) → AhdInPlace image w h tile := by
  intro hclaim
  obtain ⟨image', hrun, -⟩ :=
    hclaim .rggb 2 3 (List.replicate 18 0) (by decide) (by decide) rfl
  have hnone : gpAhdInterpolate (List.replicate 18 0) 2 3 .rggb = none := by decide +kernel
  rw [hnone] at hrun
  cases hrun

end GPhoto2
