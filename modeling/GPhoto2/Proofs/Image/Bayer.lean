import GPhoto2.Image.Bayer
import Mathlib.Algebra.BigOperators.Group.List.Basic

/-!
# `GPhoto2.Proofs.Image.Bayer`: demosaicing in place

`HasSensors` is what a pass of `gp_bayer_interpolate` never changes: each pixel has the sample of
its sensor in the byte of its own colour. By `sourcePoints_colour` a missing byte is computed from
such bytes only, and so in place it is what it would be from the image before the pass:

* `gpBayerExpand_ends`: the samples are in their places, each of them once
  (`sampleIndex_existsUnique`).
* `interpolatePixel_wrote`: the two missing bytes of a pixel, whatever the others are.
* `gpBayerDecode_demosaics`: the image.
-/

set_option autoImplicit false

namespace GPhoto2

open Lib
open List (getElem?_set_ne getElem?_set_self length_set mem_cons mem_cons_self mem_map not_mem_nil)
open Option (bind_eq_bind bind_some)

/-! ### The image that is meant -/

section
variable (input : List UInt8) (tile : BayerTile) (w h : Nat)

/-- The sample of a pixel. -/
def sensorAt (x y : Nat) : UInt8 := input.getD (sampleIndex tile w x y) 0

/-- The samples at those of some points that are in the image. -/
def samplesOf (points : List (Int × Int)) : List Nat :=
  (points.filter (insideImage w h)).map fun p =>
    (sensorAt input tile w p.1.toNat p.2.toNat).toNat

/-- The points to the right and to the left. -/
def rowPoints (x y : Nat) : List (Int × Int) := [((x : Int) + 1, y), ((x : Int) - 1, y)]

/-- The points below and above. -/
def columnPoints (x y : Nat) : List (Int × Int) := [(x, (y : Int) + 1), (x, (y : Int) - 1)]

/-- The neighbours of a pixel that have a colour it misses. -/
def sourcePoints (x y c : Nat) : List (Int × Int) :=
  if colourAt tile x y = green then
    if colourAt tile (x + 1) y = c then rowPoints x y else columnPoints x y
  else if c = green then crossPoints x y
  else diagonalPoints x y

/-- A missing byte from samples: the average of one or two of them for a green pixel, and what
`gp_bayer_accrue` makes of up to four for the others. -/
def demosaic (x y c : Nat) : Option Nat :=
  if colourAt tile x y = green then
    quotient (samplesOf input tile w h (sourcePoints tile x y c)).sum
      (samplesOf input tile w h (sourcePoints tile x y c)).length
  else accrue c (samplesOf input tile w h (sourcePoints tile x y c))

/-- The image has its sample in each pixel, and the other two bytes are made of samples of their
colour. -/
structure Demosaiced (image : List UInt8) : Prop where
  length_eq : image.length = 3 * (w * h)
  own : ∀ x y, x < w → y < h →
    image[ad x y w + colourAt tile x y]? = input[sampleIndex tile w x y]?
  missing : ∀ x y c, x < w → y < h → c < 3 → c ≠ colourAt tile x y →
    ∃ b, image[ad x y w + c]? = some b ∧ demosaic input tile w h x y c = some b.toNat
  sources : ∀ x y c, x < w → y < h → c < 3 → c ≠ colourAt tile x y →
    ∀ p ∈ sourcePoints tile x y c, insideImage w h p →
      colourAt tile p.1.toNat p.2.toNat = c

end

/-! ### Indices -/

section
variable {w h x y x' y' c c' : Nat}

theorem ad_inj (hx : x < w) (hx' : x' < w) (hc : c < 3) (hc' : c' < 3)
    (heq : ad x y w + c = ad x' y' w + c') : x = x' ∧ y = y' ∧ c = c' := by
  unfold ad at heq
  have hrow : y * w + x = y' * w + x' := by omega
  have hy : y = y' := by
    rcases Nat.lt_trichotomy y y' with hlt | heq | hgt
    · have hle := Nat.mul_le_mul_right w (Nat.succ_le_of_lt hlt)
      rw [Nat.succ_mul] at hle
      omega
    · exact heq
    · have hle := Nat.mul_le_mul_right w (Nat.succ_le_of_lt hgt)
      rw [Nat.succ_mul] at hle
      omega
  subst hy
  exact ⟨by omega, rfl, by omega⟩

theorem ad_lt (hx : x < w) (hy : y < h) (hc : c < 3) : ad x y w + c < 3 * (w * h) := by
  have hle := Nat.mul_le_mul_right w (Nat.succ_le_of_lt hy)
  rw [Nat.succ_mul, Nat.mul_comm h w] at hle
  unfold ad
  omega

/-- Where a sample is in its line of the input. -/
def lineIndex (tile : BayerTile) (w x : Nat) : Nat :=
  if tile.interlaced then if x % 2 = 1 then x / 2 else w / 2 + x / 2 else x

variable (tile : BayerTile)

theorem sampleIndex_eq (w x y : Nat) :
    sampleIndex tile w x y = y * w + lineIndex tile w x := by
  unfold sampleIndex lineIndex
  split <;> rfl

theorem lineIndex_lt (hx : x < w) : lineIndex tile w x < w := by
  unfold lineIndex
  split
  · split <;> omega
  · exact hx

theorem lineIndex_inj (hx : x < w) (hx' : x' < w)
    (heq : lineIndex tile w x = lineIndex tile w x') : x = x' := by
  unfold lineIndex at heq
  split at heq
  · split at heq <;> split at heq <;> omega
  · exact heq

theorem lineIndex_surj {j : Nat} (hj : j < w) :
    ∃ x < w, lineIndex tile w x = j := by
  unfold lineIndex
  split
  · by_cases hodd : j < w / 2
    · refine ⟨2 * j + 1, by omega, ?_⟩
      rw [if_pos (by omega)]
      omega
    · refine ⟨2 * (j - w / 2), by omega, ?_⟩
      rw [if_neg (by omega)]
      omega
  · exact ⟨j, hj, rfl⟩

theorem sampleIndex_lt (hx : x < w) (hy : y < h) :
    sampleIndex tile w x y < w * h := by
  have hline := lineIndex_lt tile hx
  have hle := Nat.mul_le_mul_right w (Nat.succ_le_of_lt hy)
  rw [Nat.succ_mul, Nat.mul_comm h w] at hle
  rw [sampleIndex_eq]
  omega

theorem sampleIndex_existsUnique {k : Nat} (hk : k < w * h) :
    ∃ p : Nat × Nat, (p.1 < w ∧ p.2 < h ∧ sampleIndex tile w p.1 p.2 = k) ∧
      ∀ q : Nat × Nat, q.1 < w → q.2 < h → sampleIndex tile w q.1 q.2 = k → q = p := by
  have hw : 0 < w := by
    rcases Nat.eq_zero_or_pos w with rfl | hw
    · rw [Nat.zero_mul] at hk
      omega
    · exact hw
  obtain ⟨x, hx, hline⟩ := lineIndex_surj tile (Nat.mod_lt k hw)
  have hsplit : k / w * w + k % w = k := Nat.div_add_mod' k w
  have hy : k / w < h := Nat.div_lt_of_lt_mul hk
  refine ⟨(x, k / w), ⟨hx, hy, ?_⟩, ?_⟩
  · show sampleIndex tile w x (k / w) = k
    rw [sampleIndex_eq, hline, hsplit]
  · intro q hqx _ hq
    rw [sampleIndex_eq] at hq
    have hqline := lineIndex_lt tile hqx
    have hrow : q.2 = k / w := by
      rw [← hq, Nat.mul_comm, Nat.mul_add_div hw, Nat.div_eq_of_lt hqline, Nat.add_zero]
    have hcolumn : q.1 = x := by
      refine lineIndex_inj tile hqx hx ?_
      rw [hline, ← hq, Nat.mul_comm, Nat.mul_add_mod, Nat.mod_eq_of_lt hqline]
    exact Prod.ext hcolumn hrow

end

/-! ### Colours -/

variable (tile : BayerTile)

theorem colourAt_lt (x y : Nat) : colourAt tile x y < 3 := by
  have hall : ∀ i < 4, (tileColours tile).getD i 0 < 3 := by cases tile <;> decide
  refine hall (bayerIndex x y) ?_
  unfold bayerIndex
  split <;> split <;> omega

/-- The neighbours in a tile: what a position code says of them. `x'` is any column beside
`x`, and `y'` any row beside `y`. -/
theorem bayer_cases {x y x' y' : Nat} (hx : x' % 2 ≠ x % 2)
    (hy : y' % 2 ≠ y % 2) :
    (bayerIndex x y = (posCodes tile).1 ∧ colourAt tile x y = red ∧
      colourAt tile x' y = green ∧ colourAt tile x y' = green ∧ colourAt tile x' y' = blue) ∨
    (bayerIndex x y = (posCodes tile).2.1 ∧ bayerIndex x y ≠ (posCodes tile).1 ∧
      colourAt tile x y = green ∧ colourAt tile x' y = red ∧ colourAt tile x y' = blue) ∨
    (bayerIndex x y = (posCodes tile).2.2.1 ∧ bayerIndex x y ≠ (posCodes tile).1 ∧
      bayerIndex x y ≠ (posCodes tile).2.1 ∧
      colourAt tile x y = green ∧ colourAt tile x' y = blue ∧ colourAt tile x y' = red) ∨
    (bayerIndex x y ≠ (posCodes tile).1 ∧ bayerIndex x y ≠ (posCodes tile).2.1 ∧
      bayerIndex x y ≠ (posCodes tile).2.2.1 ∧ colourAt tile x y = blue ∧
      colourAt tile x' y = green ∧ colourAt tile x y' = green ∧ colourAt tile x' y' = red) := by
  unfold colourAt bayerIndex
  rcases Nat.mod_two_eq_zero_or_one x with hx0 | hx1
  · have hx' : x' % 2 = 1 := by omega
    rcases Nat.mod_two_eq_zero_or_one y with hy0 | hy1
    · have hy' : y' % 2 = 1 := by omega
      rw [hx0, hy0, hx', hy']
      cases tile <;> decide
    · have hy' : y' % 2 = 0 := by omega
      rw [hx0, hy1, hx', hy']
      cases tile <;> decide
  · have hx' : x' % 2 = 0 := by omega
    rcases Nat.mod_two_eq_zero_or_one y with hy0 | hy1
    · have hy' : y' % 2 = 1 := by omega
      rw [hx1, hy0, hx', hy']
      cases tile <;> decide
    · have hy' : y' % 2 = 0 := by omega
      rw [hx1, hy1, hx', hy']
      cases tile <;> decide

theorem colourAt_congr {x y x' y' : Nat} (hx : x' % 2 = x % 2)
    (hy : y' % 2 = y % 2) : colourAt tile x' y' = colourAt tile x y := by
  unfold colourAt bayerIndex
  rw [hx, hy]

section
variable {w h x y : Nat} {p : Int × Int} (hinside : insideImage w h p = true)
include hinside

variable (tile : BayerTile)

/-- The colour of a sensor in the image depends on whether its column and row are odd. -/
theorem colourAt_parity {x' y' : Nat} (hx : p.1 % 2 = (x' : Int) % 2)
    (hy : p.2 % 2 = (y' : Int) % 2) :
    colourAt tile p.1.toNat p.2.toNat = colourAt tile x' y' := by
  have hpos := of_decide_eq_true hinside
  exact colourAt_congr tile (by omega) (by omega)

theorem colourAt_rowPoints (hp : p ∈ rowPoints x y) :
    colourAt tile p.1.toNat p.2.toNat = colourAt tile (x + 1) y := by
  simp only [rowPoints, mem_cons, not_mem_nil, or_false] at hp
  apply colourAt_parity hinside tile
  · rcases hp with rfl | rfl <;> simp only <;> omega
  · rcases hp with rfl | rfl <;> rfl

theorem colourAt_columnPoints (hp : p ∈ columnPoints x y) :
    colourAt tile p.1.toNat p.2.toNat = colourAt tile x (y + 1) := by
  simp only [columnPoints, mem_cons, not_mem_nil, or_false] at hp
  apply colourAt_parity hinside tile
  · rcases hp with rfl | rfl <;> rfl
  · rcases hp with rfl | rfl <;> simp only <;> omega

theorem colourAt_diagonalPoints (hp : p ∈ diagonalPoints x y) :
    colourAt tile p.1.toNat p.2.toNat = colourAt tile (x + 1) (y + 1) := by
  simp only [diagonalPoints, mem_cons, not_mem_nil, or_false] at hp
  apply colourAt_parity hinside tile
  · rcases hp with rfl | rfl | rfl | rfl <;> simp only <;> omega
  · rcases hp with rfl | rfl | rfl | rfl <;> simp only <;> omega

end

theorem mem_crossPoints {x y : Nat} {p : Int × Int} :
    p ∈ crossPoints x y ↔ p ∈ rowPoints x y ∨ p ∈ columnPoints x y := by
  simp only [crossPoints, rowPoints, columnPoints, mem_cons, not_mem_nil, or_false]
  tauto

theorem sourcePoints_colour {w h x y c : Nat} (hc : c < 3)
    (hmiss : c ≠ colourAt tile x y) {p : Int × Int} (hp : p ∈ sourcePoints tile x y c)
    (hinside : insideImage w h p = true) : colourAt tile p.1.toNat p.2.toNat = c := by
  have hx : (x + 1) % 2 ≠ x % 2 := by omega
  have hy : (y + 1) % 2 ≠ y % 2 := by omega
  have hcases := bayer_cases tile hx hy
  simp only [red, green, blue] at hcases
  have hone : green = 1 := rfl
  unfold sourcePoints at hp
  by_cases hgreen : colourAt tile x y = green
  · rw [if_pos hgreen] at hp
    by_cases hrow : colourAt tile (x + 1) y = c
    · rw [if_pos hrow] at hp
      rw [colourAt_rowPoints hinside tile hp, hrow]
    · rw [if_neg hrow] at hp
      rw [colourAt_columnPoints hinside tile hp]
      omega
  · rw [if_neg hgreen] at hp
    by_cases hcg : c = green
    · rw [if_pos hcg] at hp
      rcases mem_crossPoints.mp hp with hp | hp
      · rw [colourAt_rowPoints hinside tile hp]
        omega
      · rw [colourAt_columnPoints hinside tile hp]
        omega
    · rw [if_neg hcg] at hp
      rw [colourAt_diagonalPoints hinside tile hp]
      omega

/-! ### Values -/

variable {values : List Nat}

theorem sum_le_of_forall {n : Nat} (h : ∀ v ∈ values, v ≤ n) :
    values.sum ≤ values.length * n := by
  induction values with
  | nil => exact Nat.zero_le _
  | cons v values ih =>
    have hfirst := h v mem_cons_self
    have hrest := ih fun u hu => h u (List.mem_cons_of_mem v hu)
    rw [List.sum_cons, List.length_cons, Nat.succ_mul]
    omega

theorem quotient_ends (hne : values ≠ []) (h : ∀ v ∈ values, v ≤ 255) :
    ∃ v ≤ 255, quotient values.sum values.length = some v := by
  have hpos : 0 < values.length := List.length_pos_iff.mpr hne
  refine ⟨values.sum / values.length, ?_, if_neg (by omega)⟩
  exact Nat.div_le_of_le_mul (sum_le_of_forall h)

theorem sideMean_ends (hne : values ≠ []) (h : ∀ v ∈ values, v ≤ 255)
    (hlength : values.length ≤ 4) : ∃ v ≤ 255, sideMean values = some v := by
  obtain ⟨average, haverage, hquotient⟩ := quotient_ends hne h
  have hthird : ∀ keep : Nat → Bool, (values.filter keep).length ≤ 3 →
      (values.filter keep).sum / 3 ≤ 255 := by
    intro keep hthree
    have hkeep : ∀ v ∈ values.filter keep, v ≤ 255 := fun v hv => h v (List.mem_of_mem_filter hv)
    have hsum := sum_le_of_forall hkeep
    omega
  have hsplit := @List.length_eq_length_filter_add _ values fun v => decide (average < v)
  unfold sideMean
  simp only [hquotient, bind_eq_bind, bind_some]
  by_cases hfour : values.length < 4
  · exact ⟨average, haverage, if_pos hfour⟩
  rw [if_neg hfour]
  by_cases htie : (values.filter fun v => average < v).length = 2 ∨
      (values.filter fun v => average < v).length = 0
  · exact ⟨average, haverage, if_pos htie⟩
  rw [if_neg htie]
  by_cases hthree : (values.filter fun v => average < v).length = 3
  · exact ⟨_, hthird _ (by omega), if_pos hthree⟩
  · refine ⟨_, hthird (fun v => ¬average < v) ?_, if_neg hthree⟩
    simp only [decide_not] at hsplit ⊢
    omega

theorem greenLine_le (h : ∀ v ∈ values, v ≤ 255) {v : Nat}
    (hline : greenLine values = some v) : v ≤ 255 := by
  unfold greenLine at hline
  split at hline
  · rename_i v0 v1 v2 v3
    have h0 := h v0 (by simp)
    have h1 := h v1 (by simp)
    have h2 := h v2 (by simp)
    have h3 := h v3 (by simp)
    simp only at hline
    split at hline
    · have := Option.some.inj hline
      omega
    · split at hline
      · have := Option.some.inj hline
        omega
      · cases hline
  · cases hline

theorem accrue_ends (c : Nat) (hne : values ≠ []) (h : ∀ v ∈ values, v ≤ 255)
    (hlength : values.length ≤ 4) : ∃ v ≤ 255, accrue c values = some v := by
  obtain ⟨side, hside, hmean⟩ := sideMean_ends hne h hlength
  unfold accrue
  by_cases hc : c = green
  · rw [if_pos hc]
    cases hline : greenLine values with
    | none => exact ⟨side, hside, hmean⟩
    | some v => exact ⟨v, greenLine_le h hline, rfl⟩
  · rw [if_neg hc]
    exact ⟨side, hside, hmean⟩

section
variable (input : List UInt8) (tile : BayerTile) {w h x y : Nat}

/-- An image of two lines and columns has a neighbour in each direction. -/
theorem exists_inside (hw : 2 ≤ w) (hh : 2 ≤ h) (hx : x < w) (hy : y < h) (c : Nat) :
    ∃ p ∈ sourcePoints tile x y c, insideImage w h p = true := by
  have hrow : ∃ p ∈ rowPoints x y, insideImage w h p = true := by
    by_cases hlast : x + 1 < w
    · exact ⟨_, mem_cons_self, decide_eq_true (by simp only; omega)⟩
    · exact ⟨_, List.mem_cons_of_mem _ mem_cons_self, decide_eq_true (by simp only; omega)⟩
  have hcolumn : ∃ p ∈ columnPoints x y, insideImage w h p = true := by
    by_cases hlast : y + 1 < h
    · exact ⟨_, mem_cons_self, decide_eq_true (by simp only; omega)⟩
    · exact ⟨_, List.mem_cons_of_mem _ mem_cons_self, decide_eq_true (by simp only; omega)⟩
  have hdiagonal : ∃ p ∈ diagonalPoints x y, insideImage w h p = true := by
    unfold diagonalPoints
    by_cases hx' : x + 1 < w
    · by_cases hy' : y + 1 < h
      · exact ⟨((x : Int) + 1, (y : Int) + 1), by simp, decide_eq_true (by simp only; omega)⟩
      · exact ⟨((x : Int) + 1, (y : Int) - 1), by simp, decide_eq_true (by simp only; omega)⟩
    · by_cases hy' : y + 1 < h
      · exact ⟨((x : Int) - 1, (y : Int) + 1), by simp, decide_eq_true (by simp only; omega)⟩
      · exact ⟨((x : Int) - 1, (y : Int) - 1), by simp, decide_eq_true (by simp only; omega)⟩
  unfold sourcePoints
  split
  · split
    · exact hrow
    · exact hcolumn
  · split
    · obtain ⟨p, hp, hinside⟩ := hrow
      exact ⟨p, mem_crossPoints.mpr (.inl hp), hinside⟩
    · exact hdiagonal

theorem length_sourcePoints (c : Nat) : (sourcePoints tile x y c).length ≤ 4 := by
  unfold sourcePoints
  split
  · split <;> simp [rowPoints, columnPoints]
  · split <;> simp [crossPoints, diagonalPoints]

theorem samplesOf_le {points : List (Int × Int)} {v : Nat}
    (hv : v ∈ samplesOf input tile w h points) : v ≤ 255 := by
  obtain ⟨p, -, rfl⟩ := mem_map.mp hv
  have := (sensorAt input tile w p.1.toNat p.2.toNat).toNat_lt
  omega

theorem length_samplesOf (points : List (Int × Int)) :
    (samplesOf input tile w h points).length ≤ points.length := by
  unfold samplesOf
  rw [List.length_map]
  exact List.length_filter_le _ _

theorem accrue_eq_quotient (c : Nat) {values : List Nat} (hfew : values.length < 4) :
    accrue c values = quotient values.sum values.length := by
  have hmean : sideMean values = quotient values.sum values.length := by
    unfold sideMean
    simp only [if_pos hfew]
    cases quotient values.sum values.length <;> rfl
  have hline : greenLine values = none := by
    unfold greenLine
    split
    · simp at hfew
    · rfl
  unfold accrue
  rw [hline, hmean]
  split <;> rfl

theorem demosaic_eq_quotient {c : Nat} (hfew : colourAt tile x y = green ∨
      (samplesOf input tile w h (sourcePoints tile x y c)).length < 4) :
    demosaic input tile w h x y c =
      quotient (samplesOf input tile w h (sourcePoints tile x y c)).sum
        (samplesOf input tile w h (sourcePoints tile x y c)).length := by
  unfold demosaic
  by_cases hgreen : colourAt tile x y = green
  · rw [if_pos hgreen]
  · rw [if_neg hgreen, accrue_eq_quotient c (hfew.resolve_left hgreen)]

theorem demosaic_ends (hw : 2 ≤ w) (hh : 2 ≤ h) (hx : x < w) (hy : y < h) (c : Nat) :
    ∃ v ≤ 255, demosaic input tile w h x y c = some v := by
  obtain ⟨p, hp, hinside⟩ := exists_inside tile hw hh hx hy c
  have hne : samplesOf input tile w h (sourcePoints tile x y c) ≠ [] :=
    List.ne_nil_of_mem (mem_map.mpr ⟨p, List.mem_filter.mpr ⟨hp, hinside⟩, rfl⟩)
  have hle : ∀ v ∈ samplesOf input tile w h (sourcePoints tile x y c), v ≤ 255 :=
    fun v hv => samplesOf_le input tile hv
  unfold demosaic
  split
  · exact quotient_ends hne hle
  · exact accrue_ends c hne hle
      (Nat.le_trans (length_samplesOf input tile _) (length_sourcePoints tile c))

end

/-! ### What stays during the pass -/

/-- The bytes that no round writes. -/
def sensorByte (tile : BayerTile) (w h i : Nat) : Prop :=
  ∃ x y, x < w ∧ y < h ∧ i = ad x y w + colourAt tile x y

/-- Each pixel has the sample of its sensor. -/
structure HasSensors (input : List UInt8) (tile : BayerTile) (w h : Nat) (image : List UInt8) :
    Prop where
  length_eq : image.length = 3 * (w * h)
  own : ∀ x y, x < w → y < h →
    image[ad x y w + colourAt tile x y]? = some (sensorAt input tile w x y)

section
variable {input image before : List UInt8} {tile : BayerTile} {w h : Nat}

theorem HasSensors.of_agreeOn (hs : HasSensors input tile w h before)
    (hagree : AgreeOn (sensorByte tile w h) image before) : HasSensors input tile w h image := by
  refine ⟨hagree.1.trans hs.length_eq, ?_⟩
  intro x y hx hy
  rw [hagree.2 _ ⟨x, y, hx, hy, rfl⟩]
  exact hs.own x y hx hy

theorem HasSensors.readColour_eq (hs : HasSensors input tile w h image) {p : Int × Int}
    (hinside : insideImage w h p = true) {c : Nat}
    (hc : colourAt tile p.1.toNat p.2.toNat = c) :
    readColour image w c (p.1.toNat, p.2.toNat) =
      some (sensorAt input tile w p.1.toNat p.2.toNat).toNat := by
  have hpos := of_decide_eq_true hinside
  unfold readColour
  rw [← hc]
  simp only
  rw [hs.own _ _ (by omega) (by omega)]
  rfl

theorem HasSensors.valuesInside_eq (hs : HasSensors input tile w h image) {c : Nat}
    {points : List (Int × Int)} (hc : ∀ p ∈ points, insideImage w h p = true →
      colourAt tile p.1.toNat p.2.toNat = c) :
    valuesInside image w h c points = some (samplesOf input tile w h points) := by
  refine mapM_of_forall ?_
  intro p hp
  obtain ⟨hmem, hinside⟩ := List.mem_filter.mp hp
  exact hs.readColour_eq hinside (hc p hmem hinside)

theorem meanOf_eq {cells : List (Bool × Nat × Nat)} {points : List (Int × Int)} (c : Nat)
    (hsame : List.Forall₂ (fun cell p => cell.1 = insideImage w h p ∧
      cell.2 = (p.1.toNat, p.2.toNat)) cells points) :
    meanOf image w c cells = (valuesInside image w h c points).bind fun values =>
      quotient values.sum values.length := by
  have hreads : (cells.filter Prod.fst).mapM (fun cell => readColour image w c cell.2) =
      valuesInside image w h c points := by
    unfold valuesInside
    induction hsame with
    | nil => rfl
    | cons hcell _ ih =>
      rename_i cell p cells points _
      rw [List.filter_cons, List.filter_cons, hcell.1]
      by_cases hinside : insideImage w h p = true
      · rw [if_pos hinside, if_pos hinside, List.mapM_cons, List.mapM_cons, ih, hcell.2]
      · rw [if_neg hinside, if_neg hinside, ih]
  unfold meanOf
  rw [hreads]
  rfl

theorem rowMean_eq {x y : Nat} (hx : x < w) (hy : y < h) (c : Nat) :
    rowMean image w c x y = (valuesInside image w h c (rowPoints x y)).bind fun values =>
      quotient values.sum values.length := by
  refine meanOf_eq c (.cons ⟨?_, ?_⟩ (.cons ⟨?_, ?_⟩ .nil))
  · exact decide_eq_decide.mpr (by simp only; omega)
  · exact Prod.ext (by simp only; omega) (by simp only; omega)
  · exact decide_eq_decide.mpr (by simp only; omega)
  · exact Prod.ext (by simp only; omega) (by simp only; omega)

theorem columnMean_eq {x y : Nat} (hx : x < w) (hy : y < h) (c : Nat) :
    columnMean image w h c x y = (valuesInside image w h c (columnPoints x y)).bind fun values =>
      quotient values.sum values.length := by
  refine meanOf_eq c (.cons ⟨?_, ?_⟩ (.cons ⟨?_, ?_⟩ .nil))
  · exact decide_eq_decide.mpr (by simp only; omega)
  · exact Prod.ext (by simp only; omega) (by simp only; omega)
  · exact decide_eq_decide.mpr (by simp only; omega)
  · exact Prod.ext (by simp only; omega) (by simp only; omega)

/-- What a round computes for a missing byte. -/
def missingByte (w h : Nat) (tile : BayerTile) (x y c : Nat) (image : List UInt8) : Option Nat :=
  if colourAt tile x y = green then
    if colourAt tile (x + 1) y = c then rowMean image w c x y else columnMean image w h c x y
  else gpBayerAccrue image w h (sourcePoints tile x y c) c

theorem HasSensors.missingByte_eq (hs : HasSensors input tile w h image) {x y c : Nat}
    (hx : x < w) (hy : y < h) (hc : c < 3) (hmiss : c ≠ colourAt tile x y) :
    missingByte w h tile x y c image = demosaic input tile w h x y c := by
  have hcolour : ∀ p ∈ sourcePoints tile x y c, insideImage w h p = true →
      colourAt tile p.1.toNat p.2.toNat = c :=
    fun p hp hinside => sourcePoints_colour tile hc hmiss hp hinside
  have hvalues := hs.valuesInside_eq hcolour
  unfold missingByte demosaic
  by_cases hgreen : colourAt tile x y = green
  · rw [if_pos hgreen, if_pos hgreen]
    unfold sourcePoints at hvalues ⊢
    rw [if_pos hgreen] at hvalues ⊢
    by_cases hrow : colourAt tile (x + 1) y = c
    · rw [if_pos hrow] at hvalues ⊢
      rw [if_pos hrow, rowMean_eq hx hy, hvalues, bind_some]
    · rw [if_neg hrow] at hvalues ⊢
      rw [if_neg hrow, columnMean_eq hx hy, hvalues, bind_some]
  · rw [if_neg hgreen, if_neg hgreen]
    unfold gpBayerAccrue
    rw [hvalues]
    rfl

/-! ### A round -/

/-- The bytes that a round writes. -/
def missingAt (tile : BayerTile) (w : Nat) (p : Nat × Nat) (i : Nat) : Prop :=
  ∃ c, c < 3 ∧ c ≠ colourAt tile p.1 p.2 ∧ i = ad p.1 p.2 w + c

/-- What it writes to them. -/
def missingValue (input : List UInt8) (tile : BayerTile) (w h : Nat) (p : Nat × Nat) (i : Nat) :
    UInt8 :=
  UInt8.ofNat ((demosaic input tile w h p.1 p.2 (i - ad p.1 p.2 w)).getD 0)

theorem put_eq {buffer : List UInt8} {i : Nat} (hi : i < buffer.length) (v : UInt8) :
    put buffer i v = some (buffer.set i v) := if_pos hi

theorem interpolatePixel_eq (w h : Nat) (tile : BayerTile) (x y : Nat) (image : List UInt8) :
    ∃ c₁ c₂, c₁ < 3 ∧ c₂ < 3 ∧ c₁ ≠ c₂ ∧ c₁ ≠ colourAt tile x y ∧ c₂ ≠ colourAt tile x y ∧
      interpolatePixel w h tile (x, y) image =
        putBoth image w (x, y) c₁ (missingByte w h tile x y c₁) c₂
          (missingByte w h tile x y c₂) := by
  have hx : (x + 1) % 2 ≠ x % 2 := by omega
  have hy : (y + 1) % 2 ≠ y % 2 := by omega
  have hred : red ≠ green := by decide
  have hblue : blue ≠ green := by decide
  have hother : red ≠ blue := by decide
  unfold interpolatePixel missingByte sourcePoints
  rcases bayer_cases tile hx hy with ⟨hcode, hown, hbeside⟩ | ⟨hcode, hno, hown, hbeside, -⟩ |
    ⟨hcode, hno, hno', hown, hbeside, -⟩ | ⟨hno, hno', hno'', hown, hbeside⟩
  · refine ⟨green, blue, by decide, by decide, by decide, ?_, ?_, ?_⟩
    · rw [hown]; decide
    · rw [hown]; decide
    · simp only [hown, if_pos hcode, if_neg hred, if_neg hblue, if_true]
  · refine ⟨red, blue, by decide, by decide, by decide, ?_, ?_, ?_⟩
    · rw [hown]; decide
    · rw [hown]; decide
    · simp only [hown, hbeside, if_neg hno, if_pos hcode, if_neg hother, if_true]
  · refine ⟨blue, red, by decide, by decide, by decide, ?_, ?_, ?_⟩
    · rw [hown]; decide
    · rw [hown]; decide
    · simp only [hown, hbeside, if_neg hno, if_neg hno', if_pos hcode, if_neg (Ne.symm hother),
        if_true]
  · refine ⟨green, red, by decide, by decide, by decide, ?_, ?_, ?_⟩
    · rw [hown]; decide
    · rw [hown]; decide
    · simp only [hown, if_neg hno, if_neg hno', if_neg hno'', if_neg hred, if_neg hblue, if_true]

theorem HasSensors.set (hs : HasSensors input tile w h image) {x y c : Nat} (hx : x < w)
    (hc : c < 3) (hmiss : c ≠ colourAt tile x y) (v : UInt8) :
    HasSensors input tile w h (image.set (ad x y w + c) v) := by
  refine ⟨length_set.trans hs.length_eq, ?_⟩
  intro x' y' hx' hy'
  rw [getElem?_set_ne, hs.own x' y' hx' hy']
  intro heq
  obtain ⟨rfl, rfl, hsame⟩ := ad_inj hx hx' hc (colourAt_lt tile x' y') heq
  exact hmiss hsame

theorem HasSensors.interpolatePixel_wrote (hs : HasSensors input tile w h image) (hw : 2 ≤ w)
    (hh : 2 ≤ h) {p : Nat × Nat} (hx : p.1 < w) (hy : p.2 < h) :
    ∃ image', interpolatePixel w h tile p image = some image' ∧
      Wrote (missingAt tile w p) (missingValue input tile w h p) image image' := by
  obtain ⟨c₁, c₂, hc₁, hc₂, hne, hmiss₁, hmiss₂, hround⟩ :=
    interpolatePixel_eq w h tile p.1 p.2 image
  obtain ⟨v₁, -, hv₁⟩ := demosaic_ends input tile hw hh hx hy c₁
  obtain ⟨v₂, -, hv₂⟩ := demosaic_ends input tile hw hh hx hy c₂
  have hlt₁ : ad p.1 p.2 w + c₁ < image.length := hs.length_eq ▸ ad_lt hx hy hc₁
  have hlt₂ : ad p.1 p.2 w + c₂ < image.length := hs.length_eq ▸ ad_lt hx hy hc₂
  have hmiddle := hs.set hx hc₁ hmiss₁ (UInt8.ofNat v₁)
  refine ⟨(image.set (ad p.1 p.2 w + c₁) (UInt8.ofNat v₁)).set (ad p.1 p.2 w + c₂)
    (UInt8.ofNat v₂), ?_, ?_, ?_, ?_⟩
  · rw [show interpolatePixel w h tile p image = _ from hround]
    unfold putBoth
    simp only [hs.missingByte_eq hx hy hc₁ hmiss₁, hv₁, bind_eq_bind, bind_some,
      put_eq hlt₁]
    rw [hmiddle.missingByte_eq hx hy hc₂ hmiss₂, hv₂, bind_some, put_eq]
    rw [length_set]
    exact hlt₂
  · rw [length_set, length_set]
  · intro i hi
    obtain ⟨c, hc, hmiss, rfl⟩ := hi
    unfold missingValue
    rw [Nat.add_sub_cancel_left]
    have hown := colourAt_lt tile p.1 p.2
    rcases (show c = c₁ ∨ c = c₂ by omega) with rfl | rfl
    · rw [getElem?_set_ne (by omega), getElem?_set_self hlt₁, hv₁]
      rfl
    · rw [getElem?_set_self (by rw [length_set]; exact hlt₂), hv₂]
      rfl
  · intro i hi
    rw [getElem?_set_ne, getElem?_set_ne]
    · intro heq
      exact hi ⟨c₁, hc₁, hmiss₁, heq.symm⟩
    · intro heq
      exact hi ⟨c₂, hc₂, hmiss₂, heq.symm⟩

/-! ### The two passes -/

/-- The bytes of a pixel. -/
def pixelAt (w : Nat) (p : Nat × Nat) (i : Nat) : Prop := ∃ c, c < 3 ∧ i = ad p.1 p.2 w + c

theorem pixelAt_own {p q : Nat × Nat} (hp : p ∈ raster w h) (hq : q ∈ raster w h) {i : Nat}
    (hip : pixelAt w p i) (hiq : pixelAt w q i) : p = q := by
  obtain ⟨c, hc, rfl⟩ := hip
  obtain ⟨c', hc', heq⟩ := hiq
  obtain ⟨hx, hy, -⟩ := ad_inj (mem_raster.mp hp).1 (mem_raster.mp hq).1 hc hc' heq
  exact Prod.ext hx hy

theorem raster_pairwise {writes : Nat × Nat → Nat → Prop}
    (hwrites : ∀ p i, writes p i → pixelAt w p i) :
    (raster w h).Pairwise fun p q => ∀ i, writes p i → ¬writes q i := by
  refine List.Pairwise.imp_of_mem ?_ (raster_nodup w h)
  intro p q hp hq hne i hip hiq
  exact hne (pixelAt_own hp hq (hwrites p i hip) (hwrites q i hiq))

theorem expandPixel_wrote (tile : BayerTile) {output : List UInt8} (hin : input.length = w * h)
    (hout : output.length = 3 * (w * h)) {p : Nat × Nat} (hx : p.1 < w) (hy : p.2 < h) :
    ∃ output', expandPixel input w tile p output = some output' ∧
      Wrote (pixelAt w p) (fun i => if i = ad p.1 p.2 w + colourAt tile p.1 p.2
        then sensorAt input tile w p.1 p.2 else 0) output output' := by
  have hbase : (p.2 * w + p.1) * 3 = ad p.1 p.2 w := by
    unfold ad
    omega
  have hlt : ∀ c < 3, ad p.1 p.2 w + c < output.length := fun c hc => hout ▸ ad_lt hx hy hc
  have hr := hlt red (by decide)
  have hg := hlt green (by decide)
  have hb := hlt blue (by decide)
  have hsample : input[sampleIndex tile w p.1 p.2]? = some (sensorAt input tile w p.1 p.2) := by
    have hindex : sampleIndex tile w p.1 p.2 < input.length := hin ▸ sampleIndex_lt tile hx hy
    unfold sensorAt
    rw [List.getD_eq_getElem?_getD, List.getElem?_eq_getElem hindex]
    rfl
  have hown := hlt _ (colourAt_lt tile p.1 p.2)
  refine ⟨(((output.set (ad p.1 p.2 w + red) 0).set (ad p.1 p.2 w + green) 0).set
    (ad p.1 p.2 w + blue) 0).set (ad p.1 p.2 w + colourAt tile p.1 p.2)
      (sensorAt input tile w p.1 p.2), ?_, ?_, ?_, ?_⟩
  · unfold expandPixel
    simp only [hbase, hsample, put, length_set, if_pos hr, if_pos hg, if_pos hb, if_pos hown,
      bind_eq_bind, bind_some]
  · simp only [length_set]
  · intro i hi
    obtain ⟨c, hc, rfl⟩ := hi
    have hi := hlt c hc
    by_cases hsame : ad p.1 p.2 w + c = ad p.1 p.2 w + colourAt tile p.1 p.2
    · rw [if_pos hsame, hsame, getElem?_set_self (by simp only [length_set]; exact hown)]
    · rw [if_neg hsame, getElem?_set_ne (Ne.symm hsame)]
      simp only [red, green, blue]
      rcases (show c = 0 ∨ c = 1 ∨ c = 2 by omega) with rfl | rfl | rfl
      · rw [getElem?_set_ne (by omega), getElem?_set_ne (by omega),
          getElem?_set_self hi]
      · rw [getElem?_set_ne (by omega),
          getElem?_set_self (by simp only [length_set]; exact hi)]
      · rw [getElem?_set_self (by simp only [length_set]; exact hi)]
  · intro i hi
    have hother : ∀ c < 3, ad p.1 p.2 w + c ≠ i := fun c hc heq => hi ⟨c, hc, heq.symm⟩
    rw [getElem?_set_ne (hother _ (colourAt_lt tile p.1 p.2)),
      getElem?_set_ne (hother _ (by decide)), getElem?_set_ne (hother _ (by decide)),
      getElem?_set_ne (hother _ (by decide))]

theorem gpBayerExpand_ends (tile : BayerTile) {output : List UInt8} (hin : input.length = w * h)
    (hout : output.length = 3 * (w * h)) :
    ∃ image, gpBayerExpand input w h output tile = some image ∧
      HasSensors input tile w h image := by
  -- No byte is read, and so none has to be kept.
  have hround : ∀ p ∈ raster w h, ∀ buffer, AgreeOn (fun _ => False) buffer output →
      ∃ buffer', expandPixel input w tile p buffer = some buffer' ∧
        Wrote (pixelAt w p) (fun i => if i = ad p.1 p.2 w + colourAt tile p.1 p.2
          then sensorAt input tile w p.1 p.2 else 0) buffer buffer' := by
    intro p hp buffer hbuffer
    exact expandPixel_wrote tile hin (hbuffer.1.trans hout) (mem_raster.mp hp).1
      (mem_raster.mp hp).2
  obtain ⟨image, hrun, hlength, hwritten, -⟩ := scan_ends hround
    (raster_pairwise fun p i hi => hi) (fun p _ i _ hkept => hkept) (AgreeOn.refl _ output)
  refine ⟨image, hrun, hlength.trans hout, ?_⟩
  intro x y hx hy
  have hbyte := hwritten (x, y) (mem_raster.mpr ⟨hx, hy⟩) _
    ⟨colourAt tile x y, colourAt_lt tile x y, rfl⟩
  rw [if_pos rfl] at hbyte
  exact hbyte

theorem HasSensors.gpBayerInterpolate_ends (hs : HasSensors input tile w h before) (hw : 2 ≤ w)
    (hh : 2 ≤ h) :
    ∃ image, gpBayerInterpolate before w h tile = some image ∧
      HasSensors input tile w h image ∧
      ∀ p ∈ raster w h, ∀ i, missingAt tile w p i →
        image[i]? = some (missingValue input tile w h p i) := by
  have hkept : ∀ p ∈ raster w h, ∀ i, missingAt tile w p i → ¬sensorByte tile w h i := by
    intro p hp i hi hsensor
    obtain ⟨c, hc, hmiss, rfl⟩ := hi
    obtain ⟨x, y, hx, -, heq⟩ := hsensor
    obtain ⟨rfl, rfl, rfl⟩ := ad_inj (mem_raster.mp hp).1 hx hc (colourAt_lt tile x y) heq
    exact hmiss rfl
  have hround : ∀ p ∈ raster w h, ∀ image, AgreeOn (sensorByte tile w h) image before →
      ∃ image', interpolatePixel w h tile p image = some image' ∧
        Wrote (missingAt tile w p) (missingValue input tile w h p) image image' := by
    intro p hp image himage
    exact (hs.of_agreeOn himage).interpolatePixel_wrote hw hh (mem_raster.mp hp).1
      (mem_raster.mp hp).2
  obtain ⟨image, hrun, hlength, hwritten, hstayed⟩ := scan_ends hround
    (raster_pairwise fun p i hi => ⟨hi.choose, hi.choose_spec.1, hi.choose_spec.2.2⟩) hkept
    (AgreeOn.refl _ before)
  refine ⟨image, hrun, ⟨hlength.trans hs.length_eq, ?_⟩, hwritten⟩
  intro x y hx hy
  rw [hstayed _ fun p hp hi => hkept p hp _ hi ⟨x, y, hx, hy, rfl⟩]
  exact hs.own x y hx hy

end

/-- `gp_bayer_decode` keeps each sample in its own byte and uses each of them, and makes the other
two bytes of a pixel of the samples around it that have their colour, as if they were read from
an image of samples only. The average is what it makes of them unless all four are in the
image. -/
theorem gpBayerDecode_demosaics (tile : BayerTile) {w h : Nat} (hw : 2 ≤ w) (hh : 2 ≤ h)
    {input output : List UInt8} (hin : input.length = w * h)
    (hout : output.length = 3 * (w * h)) :
    (∃ image, gpBayerDecode input w h output tile = some image ∧
      Demosaiced input tile w h image) ∧
    (∀ k, k < w * h → ∃ p : Nat × Nat,
      (p.1 < w ∧ p.2 < h ∧ sampleIndex tile w p.1 p.2 = k) ∧
      ∀ q : Nat × Nat, q.1 < w → q.2 < h → sampleIndex tile w q.1 q.2 = k → q = p) ∧
    ∀ x y c, (colourAt tile x y = green ∨
        (samplesOf input tile w h (sourcePoints tile x y c)).length < 4) →
      demosaic input tile w h x y c =
        quotient (samplesOf input tile w h (sourcePoints tile x y c)).sum
          (samplesOf input tile w h (sourcePoints tile x y c)).length := by
  refine ⟨?_, fun k hk => sampleIndex_existsUnique tile hk, ?_⟩
  · obtain ⟨before, hexpand, hs⟩ := gpBayerExpand_ends tile hin hout
    obtain ⟨image, hrun, hsensors, hwritten⟩ := hs.gpBayerInterpolate_ends hw hh
    refine ⟨image, ?_, hsensors.length_eq, ?_, ?_, ?_⟩
    · unfold gpBayerDecode
      rw [hexpand]
      exact hrun
    · intro x y hx hy
      have hindex : sampleIndex tile w x y < input.length := hin ▸ sampleIndex_lt tile hx hy
      rw [hsensors.own x y hx hy, List.getElem?_eq_getElem hindex]
      unfold sensorAt
      rw [List.getD_eq_getElem?_getD, List.getElem?_eq_getElem hindex]
      rfl
    · intro x y c hx hy hc hmiss
      obtain ⟨v, hv, hdemosaic⟩ := demosaic_ends input tile hw hh hx hy c
      have hbyte := hwritten (x, y) (mem_raster.mpr ⟨hx, hy⟩) _ ⟨c, hc, hmiss, rfl⟩
      unfold missingValue at hbyte
      rw [Nat.add_sub_cancel_left, hdemosaic, Option.getD_some] at hbyte
      refine ⟨UInt8.ofNat v, hbyte, ?_⟩
      rw [hdemosaic, UInt8.toNat_ofNat', Nat.mod_eq_of_lt (by omega)]
    · intro x y c _ _ hc hmiss p hp hinside
      exact sourcePoints_colour tile hc hmiss hp hinside
  · intro x y c hfew
    exact demosaic_eq_quotient input tile hfew

/-- Four pixels of an interlaced tile. -/
theorem gpBayerDecode_square :
    (∃ image, gpBayerDecode [1, 2, 3, 4] 2 2 (List.replicate 12 0) .grbgInterlaced = some image ∧
      Demosaiced [1, 2, 3, 4] .grbgInterlaced 2 2 image) :=
  (gpBayerDecode_demosaics .grbgInterlaced (by decide) (by decide) rfl rfl).1

/-- Along an edge the samples are not averaged: above and below the pixel in the middle is no
light, and the right one of its neighbours has some. -/
theorem edge_not_averaged :
    ¬∀ (tile : BayerTile) (w h : Nat), 2 ≤ w → 2 ≤ h → ∀ input output : List UInt8,
      input.length = w * h → output.length = 3 * (w * h) →
      ∃ image, gpBayerDecode input w h output tile = some image ∧
        ∀ x y c, x < w → y < h → c < 3 → c ≠ colourAt tile x y →
          ∃ b, image[ad x y w + c]? = some b ∧
            quotient (samplesOf input tile w h (sourcePoints tile x y c)).sum
              (samplesOf input tile w h (sourcePoints tile x y c)).length = some b.toNat := by
  intro hclaim
  obtain ⟨image, hrun, haverage⟩ := hclaim .rggb 3 3 (by decide) (by decide)
    [0, 0, 0, 0, 0, 100, 0, 0, 0] (List.replicate 27 0) rfl rfl
  obtain ⟨b, hb, hmean⟩ := haverage 1 1 green (by decide) (by decide) (by decide) (by decide)
  have hbyte : (gpBayerDecode [0, 0, 0, 0, 0, 100, 0, 0, 0] 3 3 (List.replicate 27 0) .rggb).bind
      (fun image => image[ad 1 1 3 + green]?) = some 0 := by decide +kernel
  have hmeant : quotient (samplesOf [0, 0, 0, 0, 0, 100, 0, 0, 0] .rggb 3 3
        (sourcePoints .rggb 1 1 green)).sum
      (samplesOf [0, 0, 0, 0, 0, 100, 0, 0, 0] .rggb 3 3
        (sourcePoints .rggb 1 1 green)).length = some 25 := by decide +kernel
  rw [hrun, bind_some, hb] at hbyte
  rw [hmeant, Option.some.inj hbyte] at hmean
  exact absurd hmean (by decide)

end GPhoto2
