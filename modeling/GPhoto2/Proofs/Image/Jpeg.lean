import GPhoto2.Image.Jpeg

/-!
# `GPhoto2.Proofs.Image.Jpeg`: which pictures are cut into their chunks

`TilesFrom`: chunks that lie in the picture, each where the one before it ends. `Unstuffed` and
`markerCount` are about the bytes of a picture: no byte `0xff` that the search comes to is
followed by a zero, and how many of them it comes to.

One step of the parser looks for the next marker and adds a chunk (`jpegStep_run`,
`jpegStep_stuffed`, `jpegStep_full`). From this `jpegParseFrom_run` and `jpegParseFrom_none`
follow by induction over the rounds, and `jpeg_parse_iff`: the picture is cut as it should be
if and only if it is `Parseable`.
-/

set_option autoImplicit false

namespace GPhoto2

open List (drop_drop drop_eq_nil_of_le length_cons length_drop length_singleton)

/-! ### The bytes of a picture -/

/-- No `0xff` is followed by a zero. The byte behind an `0xff` is not looked at again. -/
def Unstuffed : List UInt8 → Prop
  | [] => True
  | [_] => True
  | b :: c :: rest => if b = 0xff then c ≠ 0 ∧ Unstuffed rest else Unstuffed (c :: rest)

/-- The number of bytes `0xff`, likewise. -/
def markerCount : List UInt8 → Nat
  | [] => 0
  | [b] => if b = 0xff then 1 else 0
  | b :: c :: rest => if b = 0xff then markerCount rest + 1 else markerCount (c :: rest)

/-- How far on the next `0xff` is, or how many bytes there are. -/
def toMarker (rest : List UInt8) : Nat := rest.findIdx (· = 0xff)

theorem toMarker_cons (b : UInt8) (rest : List UInt8) :
    toMarker (b :: rest) = if b = 0xff then 0 else toMarker rest + 1 := by
  unfold toMarker
  rw [List.findIdx_cons]
  by_cases hb : b = 0xff
  · simp [hb]
  · simp [hb]

theorem toMarker_le (rest : List UInt8) : toMarker rest ≤ rest.length := List.findIdx_le_length

/-- What the search finds next: nothing, a byte at the very end, or a byte with another one
behind it. -/
theorem marker_cases (rest : List UInt8) :
    (rest.drop (toMarker rest) = [] ∧ Unstuffed rest ∧ markerCount rest = 0) ∨
    (rest.drop (toMarker rest) = [0xff] ∧ Unstuffed rest ∧ markerCount rest = 1) ∨
    ∃ c r, rest.drop (toMarker rest) = 0xff :: c :: r ∧
      (Unstuffed rest ↔ c ≠ 0 ∧ Unstuffed r) ∧ markerCount rest = markerCount r + 1 := by
  induction rest with
  | nil => exact Or.inl ⟨rfl, trivial, rfl⟩
  | cons b rest ih =>
    rw [toMarker_cons]
    by_cases hb : b = 0xff
    · rw [if_pos hb, List.drop_zero]
      subst hb
      cases rest with
      | nil => exact Or.inr (Or.inl ⟨rfl, trivial, rfl⟩)
      | cons c r => exact Or.inr (Or.inr ⟨c, r, rfl, Iff.rfl, rfl⟩)
    · rw [if_neg hb, List.drop_succ_cons]
      have hskip : (Unstuffed (b :: rest) ↔ Unstuffed rest) ∧
          markerCount (b :: rest) = markerCount rest := by
        cases rest with
        | nil => exact ⟨Iff.rfl, if_neg hb⟩
        | cons c r => exact ⟨Iff.of_eq (if_neg hb), if_neg hb⟩
      rw [hskip.1, hskip.2]
      exact ih

/-! ### Chunks -/

/-- The chunks lie in the picture, the first begins at `a`, each of the others where the one
before it ends, and the last ends at `b`. -/
def TilesFrom (picture : List UInt8) : Nat → List Chunk → Nat → Prop
  | a, [], b => a = b
  | a, c :: chunks, b => c.start = a ∧ c.start + c.data.length ≤ picture.length ∧
      c.data = (picture.drop c.start).take c.data.length ∧
      TilesFrom picture (c.start + c.data.length) chunks b

variable {picture : List UInt8}

theorem TilesFrom.append {a b d : Nat} {cs ds : List Chunk}
    (hcs : TilesFrom picture a cs b) (hds : TilesFrom picture b ds d) :
    TilesFrom picture a (cs ++ ds) d := by
  induction cs generalizing a with
  | nil =>
    cases hcs
    exact hds
  | cons c cs ih => exact ⟨hcs.1, hcs.2.1, hcs.2.2.1, ih hcs.2.2.2⟩

theorem TilesFrom.le {a b : Nat} {cs : List Chunk}
    (h : TilesFrom picture a cs b) : a ≤ b := by
  induction cs generalizing a with
  | nil => exact Nat.le_of_eq h
  | cons c cs ih =>
    have hrest := ih h.2.2.2
    have hstart := h.1
    omega

theorem TilesFrom.flatten {a b : Nat} {cs : List Chunk}
    (h : TilesFrom picture a cs b) :
    (cs.map Chunk.data).flatten = (picture.drop a).take (b - a) := by
  induction cs generalizing a with
  | nil =>
    cases h
    simp
  | cons c cs ih =>
    obtain ⟨rfl, -, hdata, hrest⟩ := h
    have hle := hrest.le
    rw [List.map_cons, List.flatten_cons, ih hrest, ← drop_drop]
    have hsplit : b - c.start = c.data.length + (b - (c.start + c.data.length)) := by omega
    rw [hsplit, List.take_add, ← hdata]

/-- The chunk from `a` to `b`. -/
def chunkAt (picture : List UInt8) (a b : Nat) : Chunk := ⟨a, (picture.drop a).take (b - a)⟩

theorem tilesFrom_chunkAt {a b : Nat} (hab : a ≤ b)
    (hb : b ≤ picture.length) : TilesFrom picture a [chunkAt picture a b] b := by
  have hlen : ((picture.drop a).take (b - a)).length = b - a := by
    rw [List.length_take, length_drop]
    omega
  refine ⟨rfl, ?_, ?_, ?_⟩
  · show a + ((picture.drop a).take (b - a)).length ≤ picture.length
    omega
  · show (picture.drop a).take (b - a) =
      (picture.drop a).take ((picture.drop a).take (b - a)).length
    rw [hlen]
  · show a + ((picture.drop a).take (b - a)).length = b
    omega

/-! ### One step -/

section
variable {picture : List UInt8}

theorem findffLoop_eq (rest : List UInt8) (location : Nat) :
    findffLoop rest location =
      (decide (toMarker rest < rest.length), location + toMarker rest) := by
  induction rest generalizing location with
  | nil => rfl
  | cons b rest ih =>
    rw [findffLoop, toMarker_cons]
    by_cases hb : b = 0xff
    · rw [if_pos hb, if_pos hb]
      simp
    · rw [if_neg hb, if_neg hb, ih]
      have hadd : location + 1 + toMarker rest = location + (toMarker rest + 1) := by omega
      rw [hadd, length_cons]
      simp

/-- Where the search from a position stops. -/
def nextMarker (picture : List UInt8) (position : Nat) : Nat :=
  position + toMarker (picture.drop position)

theorem drop_nextMarker (position : Nat) :
    picture.drop (nextMarker picture position) =
      (picture.drop position).drop (toMarker (picture.drop position)) := by
  rw [drop_drop]
  rfl

theorem nextMarker_le {position : Nat} (h : position ≤ picture.length) :
    nextMarker picture position ≤ picture.length := by
  have hle := toMarker_le (picture.drop position)
  rw [length_drop] at hle
  unfold nextMarker
  omega

/-- The search stops at a byte `0xff` with a zero behind it. -/
def StuffedAt (picture : List UInt8) (position : Nat) : Prop :=
  ∃ r, picture.drop (nextMarker picture position) = 0xff :: 0 :: r

theorem getD_nextMarker {position : Nat} {c : UInt8} {r : List UInt8}
    (h : picture.drop (nextMarker picture position) = 0xff :: c :: r) :
    picture.getD (nextMarker picture position + 1) 0 = c := by
  have hget : (picture.drop (nextMarker picture position))[1]? = some c := by
    rw [h]
    rfl
  rw [List.getElem?_drop] at hget
  rw [List.getD_eq_getElem?_getD, hget]
  rfl

/-- The test of the loop of `gpi_jpeg_findactivemarker`. -/
theorem active_iff (position : Nat) :
    (toMarker (picture.drop position) < (picture.drop position).length ∧
      nextMarker picture position + 1 < picture.length) ↔
    ∃ c r, picture.drop (nextMarker picture position) = 0xff :: c :: r := by
  constructor
  · rintro ⟨hfound, hlt⟩
    rw [drop_nextMarker]
    rcases marker_cases (picture.drop position) with ⟨hnil, -⟩ | ⟨hone, -⟩ | ⟨c, r, hcons, -⟩
    · have hlen := congrArg List.length hnil
      rw [length_drop, List.length_nil] at hlen
      omega
    · have hlen := congrArg List.length hone
      rw [← drop_nextMarker, length_drop, length_singleton] at hlen
      omega
    · exact ⟨c, r, hcons⟩
  · rintro ⟨c, r, hcons⟩
    have hlen := congrArg List.length hcons
    rw [length_drop, length_cons, length_cons] at hlen
    refine ⟨?_, by omega⟩
    rw [length_drop]
    unfold nextMarker at hlen
    omega

theorem not_stuffedAt {position : Nat} {c : UInt8} {r : List UInt8}
    (h : picture.drop (nextMarker picture position) = 0xff :: c :: r) :
    ¬StuffedAt picture position ↔ c ≠ 0 := by
  unfold StuffedAt
  rw [h]
  constructor
  · intro hno hc
    exact hno ⟨r, by rw [hc]⟩
  · rintro hc ⟨r', hr'⟩
    cases hr'
    exact hc rfl

theorem nextMarker_again {position : Nat} {r : List UInt8}
    (h : picture.drop (nextMarker picture position) = 0xff :: r) :
    nextMarker picture (nextMarker picture position) = nextMarker picture position := by
  have hzero : toMarker (0xff :: r) = 0 := by rw [toMarker_cons, if_pos rfl]
  show nextMarker picture position +
    toMarker (picture.drop (nextMarker picture position)) = nextMarker picture position
  rw [h, hzero]
  exact Nat.add_zero _

theorem findactivemarker_succ (fuel position : Nat) :
    gpiJpegFindactivemarker picture (fuel + 1) position =
      if toMarker (picture.drop position) < (picture.drop position).length ∧
          nextMarker picture position + 1 < picture.length then
        if picture.getD (nextMarker picture position + 1) 0 ≠ 0 then
          some (some (picture.getD (nextMarker picture position + 1) 0),
            nextMarker picture position)
        else gpiJpegFindactivemarker picture fuel (nextMarker picture position)
      else some (none, nextMarker picture position) := by
  rw [gpiJpegFindactivemarker, gpiJpegFindff, findffLoop_eq]
  simp only [decide_eq_true_eq]
  rfl

theorem findactivemarker_stuffed {position : Nat} (h : StuffedAt picture position) (fuel : Nat) :
    gpiJpegFindactivemarker picture fuel position = none := by
  induction fuel generalizing position with
  | zero => rfl
  | succ fuel ih =>
    obtain ⟨r, hr⟩ := h
    rw [findactivemarker_succ, if_pos ((active_iff position).mpr ⟨0, r, hr⟩),
      if_neg (not_not_intro (getD_nextMarker hr))]
    -- the location is left where it was
    exact ih ⟨r, by rw [nextMarker_again hr]; exact hr⟩

/-- Elsewhere it ends in its first round, at the next byte `0xff` or at the end. -/
theorem findactivemarker_run {position : Nat} (h : ¬StuffedAt picture position) (fuel : Nat) :
    ∃ id, gpiJpegFindactivemarker picture (fuel + 1) position =
      some (id, nextMarker picture position) := by
  rw [findactivemarker_succ]
  by_cases hcond : toMarker (picture.drop position) < (picture.drop position).length ∧
      nextMarker picture position + 1 < picture.length
  · obtain ⟨c, r, hr⟩ := (active_iff position).mp hcond
    have hc := (not_stuffedAt hr).mp h
    rw [if_pos hcond, getD_nextMarker hr, if_pos hc]
    exact ⟨some c, rfl⟩
  · rw [if_neg hcond]
    exact ⟨none, rfl⟩

theorem addMarker_run {myjpeg : Jpeg} {a b : Nat} (hroom : myjpeg.marker.length < 20)
    (hab : a ≤ b) (hb : b ≤ picture.length) :
    ∃ jpeg, gpiJpegAddMarker myjpeg picture a ((b : Int) - 1) = some jpeg ∧
      jpeg.marker = myjpeg.marker ++ [chunkAt picture a b] := by
  unfold gpiJpegAddMarker
  have hlen : ((b : Int) - 1 - a + 1).toNat = b - a := by omega
  have hin : 0 ≤ (a : Int) ∧ 0 ≤ (b : Int) - 1 - a + 1 ∧
      (a : Int) + ((b : Int) - 1 - a + 1) ≤ picture.length := by omega
  simp only [dif_pos hroom, if_pos hin, hlen, Int.toNat_natCast]
  exact ⟨_, rfl, rfl⟩

theorem addMarker_full {myjpeg : Jpeg} {a b : Int} (hroom : ¬myjpeg.marker.length < 20) :
    gpiJpegAddMarker myjpeg picture a b = none := by
  unfold gpiJpegAddMarker
  exact dif_neg hroom

/-! ### The loop -/

/-- The body of the loop: a search, and a chunk up to what it finds. -/
def jpegStep (fuel : Nat) (picture : List UInt8) (myjpeg : Jpeg) (last position : Nat)
    (rest : Jpeg → Nat → Option Jpeg) : Option Jpeg :=
  (gpiJpegFindactivemarker picture fuel position).bind fun found =>
    (gpiJpegAddMarker myjpeg picture last ((found.2 : Int) - 1)).bind fun myjpeg =>
      rest myjpeg found.2

variable {fuel : Nat} {myjpeg : Jpeg} {last position : Nat}

theorem jpegStep_stuffed (h : StuffedAt picture position) (rest : Jpeg → Nat → Option Jpeg) :
    jpegStep fuel picture myjpeg last position rest = none := by
  unfold jpegStep
  rw [findactivemarker_stuffed h]
  rfl

theorem jpegStep_full (h : ¬myjpeg.marker.length < 20) (rest : Jpeg → Nat → Option Jpeg) :
    jpegStep fuel picture myjpeg last position rest = none := by
  unfold jpegStep
  rw [Option.bind_eq_none_iff]
  intro found _
  rw [addMarker_full h]
  rfl

theorem jpegStep_run (hfuel : 0 < fuel) (h : ¬StuffedAt picture position)
    (hroom : myjpeg.marker.length < 20) (hle : last ≤ nextMarker picture position)
    (hin : nextMarker picture position ≤ picture.length) (rest : Jpeg → Nat → Option Jpeg) :
    ∃ jpeg : Jpeg,
      jpeg.marker = myjpeg.marker ++ [chunkAt picture last (nextMarker picture position)] ∧
      jpegStep fuel picture myjpeg last position rest =
        rest jpeg (nextMarker picture position) := by
  obtain ⟨fuel, rfl⟩ : ∃ n, fuel = n + 1 := ⟨fuel - 1, by omega⟩
  obtain ⟨id, hid⟩ := findactivemarker_run h fuel
  obtain ⟨jpeg, hadd, hmarker⟩ := addMarker_run hroom hle hin
  refine ⟨jpeg, hmarker, ?_⟩
  unfold jpegStep
  rw [hid, Option.bind_some, hadd, Option.bind_some]

/-- What `gpi_jpeg_parse` does behind its loop. -/
def jpegParseEnd (picture : List UInt8) (found : Jpeg × Nat × Nat) : Option Jpeg :=
  if (found.2.2 : Int) - 2 < picture.length then
    gpiJpegAddMarker found.1 picture found.2.1 ((picture.length : Int) - 1)
  else some found.1

/-- The loop and what comes behind it, with some rounds left. -/
def jpegParseFrom (fuel : Nat) (picture : List UInt8) (rounds : Nat) (myjpeg : Jpeg)
    (last position : Nat) : Option Jpeg :=
  (jpegParseLoop fuel picture rounds myjpeg last position).bind (jpegParseEnd picture)

theorem jpegParseFrom_end (rounds : Nat) (h : ¬position < picture.length) :
    jpegParseFrom fuel picture (rounds + 1) myjpeg last position =
      jpegParseEnd picture (myjpeg, last, position) := by
  unfold jpegParseFrom
  rw [jpegParseLoop, if_neg h, Option.bind_some]

theorem jpegParseFrom_step (rounds : Nat) (h : position < picture.length) :
    jpegParseFrom fuel picture (rounds + 1) myjpeg last position =
      jpegStep fuel picture myjpeg last position
        (fun jpeg next => jpegParseFrom fuel picture rounds jpeg next (next + 2)) := by
  unfold jpegParseFrom jpegStep
  rw [jpegParseLoop, if_pos h, Option.bind_assoc]
  refine Option.bind_congr fun found _ => ?_
  exact Option.bind_assoc _ _ _

/-- How many chunks are still to come. -/
def chunksLeft (picture : List UInt8) (last position : Nat) : Nat :=
  if position = last + 2 ∧ last = picture.length then 0
  else markerCount (picture.drop position) + 1

theorem marker_step (hin : position ≤ picture.length) :
    (StuffedAt picture position ∧ ¬Unstuffed (picture.drop position)) ∨
    (¬StuffedAt picture position ∧
      (Unstuffed (picture.drop position) ↔
        Unstuffed (picture.drop (nextMarker picture position + 2))) ∧
      markerCount (picture.drop position) =
        chunksLeft picture (nextMarker picture position) (nextMarker picture position + 2)) := by
  have hle := nextMarker_le hin
  rcases marker_cases (picture.drop position) with
    ⟨hrest, hunst, hcount⟩ | ⟨hrest, hunst, hcount⟩ | ⟨c, r, hrest, hunst, hcount⟩
  all_goals
    rw [← drop_nextMarker] at hrest
    have hlen := congrArg List.length hrest
    rw [length_drop] at hlen
  · -- no further byte: the next place is the end of the picture
    rw [List.length_nil] at hlen
    refine Or.inr ⟨?_, ?_, ?_⟩
    · rintro ⟨r, hr⟩
      rw [hrest] at hr
      cases hr
    · rw [drop_eq_nil_of_le (by omega : picture.length ≤ nextMarker picture position + 2)]
      exact iff_of_true hunst trivial
    · rw [hcount, chunksLeft, if_pos ⟨rfl, by omega⟩]
  · rw [length_singleton] at hlen
    have hnil : picture.drop (nextMarker picture position + 2) = [] :=
      drop_eq_nil_of_le (by omega)
    refine Or.inr ⟨?_, ?_, ?_⟩
    · rintro ⟨r, hr⟩
      rw [hrest] at hr
      cases hr
    · rw [hnil]
      exact iff_of_true hunst trivial
    · rw [hcount, chunksLeft, if_neg (by omega), hnil]
      rfl
  · rw [length_cons, length_cons] at hlen
    have hr : picture.drop (nextMarker picture position + 2) = r := by
      rw [← drop_drop, hrest]
      rfl
    by_cases hc : c = 0
    · exact Or.inl ⟨⟨r, by rw [hrest, hc]⟩, fun h => (hunst.mp h).1 hc⟩
    · refine Or.inr ⟨(not_stuffedAt hrest).mpr hc, ?_, ?_⟩
      · rw [hr, hunst]
        exact and_iff_right hc
      · rw [hcount, chunksLeft, if_neg (by omega), hr]

theorem jpegParseEnd_run (hlast : last ≤ picture.length)
    (hpos : position = last + 1 ∨ position = last + 2)
    (hend : ¬position < picture.length)
    (hroom : myjpeg.marker.length + chunksLeft picture last position ≤ 20) :
    ∃ jpeg cs, jpegParseEnd picture (myjpeg, last, position) = some jpeg ∧
      jpeg.marker = myjpeg.marker ++ cs ∧ TilesFrom picture last cs picture.length := by
  unfold jpegParseEnd
  by_cases hmore : (position : Int) - 2 < picture.length
  · rw [chunksLeft, if_neg (by omega)] at hroom
    have hlt : myjpeg.marker.length < 20 := by omega
    obtain ⟨jpeg, hadd, hmarker⟩ := addMarker_run hlt hlast (Nat.le_refl picture.length)
    rw [if_pos hmore]
    exact ⟨jpeg, _, hadd, hmarker, tilesFrom_chunkAt hlast (Nat.le_refl _)⟩
  · rw [if_neg hmore]
    refine ⟨myjpeg, [], rfl, (List.append_nil _).symm, ?_⟩
    show last = picture.length
    omega

theorem jpegParseEnd_full (hpos : position = last + 1 ∨ position = last + 2)
    (hlast : last ≤ picture.length) (hend : ¬position < picture.length)
    (hjpeg : myjpeg.marker.length ≤ 20)
    (hroom : ¬myjpeg.marker.length + chunksLeft picture last position ≤ 20) :
    jpegParseEnd picture (myjpeg, last, position) = none := by
  unfold jpegParseEnd
  have hnil : picture.drop position = [] := drop_eq_nil_of_le (by omega)
  unfold chunksLeft at hroom
  rw [hnil] at hroom
  by_cases hdone : position = last + 2 ∧ last = picture.length
  · rw [if_pos hdone] at hroom
    exact absurd hjpeg hroom
  · rw [if_neg hdone] at hroom
    have hmore : (position : Int) - 2 < picture.length := by omega
    have hzero : markerCount [] = 0 := rfl
    have hfull : ¬myjpeg.marker.length < 20 := by omega
    rw [if_pos hmore]
    exact addMarker_full hfull

/-- The whole run, where it gets past every marker and has room for every chunk. -/
theorem jpegParseFrom_run (hfuel : 0 < fuel) {rounds : Nat}
    (hrounds : picture.length - position < rounds) (hlast : last ≤ picture.length)
    (hpos : position = last + 1 ∨ position = last + 2)
    (hunst : Unstuffed (picture.drop position))
    (hroom : myjpeg.marker.length + chunksLeft picture last position ≤ 20) :
    ∃ jpeg cs, jpegParseFrom fuel picture rounds myjpeg last position = some jpeg ∧
      jpeg.marker = myjpeg.marker ++ cs ∧ TilesFrom picture last cs picture.length := by
  induction rounds generalizing myjpeg last position with
  | zero => omega
  | succ rounds ih =>
    by_cases hin : position < picture.length
    · rw [chunksLeft, if_neg (by omega)] at hroom
      rcases marker_step (Nat.le_of_lt hin) with ⟨-, hno⟩ | ⟨hfree, hnext, hcount⟩
      · exact absurd hunst hno
      · have hm : nextMarker picture position ≤ picture.length := nextMarker_le (by omega)
        have hge : position ≤ nextMarker picture position := Nat.le_add_right _ _
        have hlt : myjpeg.marker.length < 20 := by omega
        have hle : last ≤ nextMarker picture position := by omega
        obtain ⟨jpeg, hmarker, hstep⟩ := jpegStep_run hfuel hfree hlt hle hm
          fun jpeg next => jpegParseFrom fuel picture rounds jpeg next (next + 2)
        have hlen : jpeg.marker.length = myjpeg.marker.length + 1 := by
          rw [hmarker, List.length_append, length_singleton]
        have hleft : jpeg.marker.length + chunksLeft picture (nextMarker picture position)
            (nextMarker picture position + 2) ≤ 20 := by omega
        obtain ⟨done, cs, hdone, hcs, htiles⟩ :=
          ih (by omega) hm (Or.inr rfl) (hnext.mp hunst) hleft
        refine ⟨done, chunkAt picture last (nextMarker picture position) :: cs, ?_, ?_, ?_⟩
        · rw [jpegParseFrom_step rounds hin, hstep]
          exact hdone
        · rw [hcs, hmarker, List.append_assoc]
          rfl
        · exact (tilesFrom_chunkAt (by omega) hm).append htiles
    · rw [jpegParseFrom_end rounds hin]
      exact jpegParseEnd_run hlast hpos hin hroom

/-- Elsewhere it hangs or writes behind the table, however many rounds it is given. -/
theorem jpegParseFrom_none {rounds : Nat} (hlast : last ≤ picture.length)
    (hpos : position = last + 1 ∨ position = last + 2)
    (hbad : ¬(Unstuffed (picture.drop position) ∧
      myjpeg.marker.length + chunksLeft picture last position ≤ 20)) :
    jpegParseFrom fuel picture rounds myjpeg last position = none := by
  induction rounds generalizing myjpeg last position with
  | zero => rfl
  | succ rounds ih =>
    have hjpeg := myjpeg.count_le
    by_cases hin : position < picture.length
    · rw [jpegParseFrom_step rounds hin]
      rcases marker_step (Nat.le_of_lt hin) with ⟨hstuffed, -⟩ | ⟨hfree, hnext, hcount⟩
      · exact jpegStep_stuffed hstuffed _
      · by_cases hroom : myjpeg.marker.length < 20
        · by_cases hfuel : 0 < fuel
          · have hm : nextMarker picture position ≤ picture.length := nextMarker_le (by omega)
            have hge : position ≤ nextMarker picture position := Nat.le_add_right _ _
            have hle : last ≤ nextMarker picture position := by omega
            obtain ⟨jpeg, hmarker, hstep⟩ := jpegStep_run hfuel hfree hroom hle hm
              fun jpeg next => jpegParseFrom fuel picture rounds jpeg next (next + 2)
            have hlen : jpeg.marker.length = myjpeg.marker.length + 1 := by
              rw [hmarker, List.length_append, length_singleton]
            rw [hstep]
            refine ih hm (Or.inr rfl) fun hgood => hbad ⟨hnext.mpr hgood.1, ?_⟩
            have hleft := hgood.2
            rw [chunksLeft, if_neg (by omega)]
            omega
          · have hzero : fuel = 0 := by omega
            subst hzero
            rfl
        · exact jpegStep_full hroom _
    · rw [jpegParseFrom_end rounds hin]
      have hnil : picture.drop position = [] := drop_eq_nil_of_le (by omega)
      refine jpegParseEnd_full hpos hlast hin hjpeg fun hroom => hbad ⟨?_, hroom⟩
      rw [hnil]
      trivial

end

/-! ### The whole picture -/

/-- The picture is cut as it should be: what comes before the first marker, if there is
anything, and the picture from there to its end, in chunks that follow each other. Put together
again they give what was cut. -/
structure CutAtMarkers (picture : List UInt8) (before markers : List Chunk) : Prop where
  before_tiles : TilesFrom picture 0 before (toMarker picture)
  markers_tile : TilesFrom picture (toMarker picture) markers picture.length
  from_first : (markers.map Chunk.data).flatten = picture.drop (toMarker picture)
  whole : ((before ++ markers).map Chunk.data).flatten = picture

theorem cutAtMarkers {before markers : List Chunk}
    (hbefore : TilesFrom picture 0 before (toMarker picture))
    (hmarkers : TilesFrom picture (toMarker picture) markers picture.length) :
    CutAtMarkers picture before markers := by
  refine ⟨hbefore, hmarkers, ?_, ?_⟩
  · rw [hmarkers.flatten, ← length_drop]
    exact List.take_length
  · rw [(hbefore.append hmarkers).flatten]
    exact List.take_length

/-- Pictures that get past the parser. A picture that begins with a byte `0xff` is searched from
its third byte on; another one from its start, and then from behind the first byte `0xff`. -/
def Parseable (picture : List UInt8) : Prop :=
  if picture.head? = some 0xff then
    2 ≤ picture.length ∧ Unstuffed (picture.drop 2) ∧ markerCount (picture.drop 2) + 1 ≤ 20
  else
    picture ≠ [] ∧ (picture.drop (toMarker picture + 1)).head? ≠ some 0 ∧
      Unstuffed (picture.drop (toMarker picture + 1)) ∧
      markerCount (picture.drop (toMarker picture + 1)) + 2 ≤ 20

section
variable {picture : List UInt8} {fuel : Nat}

/-- The first chunk of a lone byte `0xff` is two bytes long. -/
theorem gpiJpegParse_short (h : picture.head? = some 0xff) (hlen : ¬2 ≤ picture.length) :
    gpiJpegParse fuel gpiJpegNew picture = none := by
  cases picture with
  | nil => rfl
  | cons b rest =>
    obtain rfl : b = 0xff := Option.some.inj h
    cases rest with
    | nil => cases fuel <;> rfl
    | cons c rest => exact absurd (Nat.le_add_left 2 rest.length) hlen

/-- The first chunk, and what follows from `gap` bytes behind the place it ends at. -/
def jpegParseFirst (fuel : Nat) (picture : List UInt8) (position gap : Nat) : Option Jpeg :=
  jpegStep fuel picture gpiJpegNew 0 position
    (fun jpeg next => jpegParseFrom fuel picture fuel jpeg next (next + gap))

theorem gpiJpegParse_marker (h : picture.head? = some 0xff) :
    gpiJpegParse fuel gpiJpegNew picture = jpegParseFirst fuel picture 2 2 := by
  cases picture with
  | nil => cases h
  | cons b rest =>
    obtain rfl : b = 0xff := Option.some.inj h
    rfl

theorem gpiJpegParse_other {b : UInt8} {rest : List UInt8} (hb : b ≠ 0xff) :
    gpiJpegParse fuel gpiJpegNew (b :: rest) = jpegParseFirst fuel (b :: rest) 0 1 := by
  unfold gpiJpegParse
  simp only [if_pos hb]
  rfl

/-- When the parser gets past the first chunk and all that follow. -/
def GetsThrough (picture : List UInt8) (position gap : Nat) : Prop :=
  ¬StuffedAt picture position ∧ Unstuffed (picture.drop (nextMarker picture position + gap)) ∧
    chunksLeft picture (nextMarker picture position) (nextMarker picture position + gap) + 1 ≤ 20

variable {position gap : Nat}

theorem gap_cases (hgap : gap = 1 ∨ gap = 2) (next : Nat) :
    next + gap = next + 1 ∨ next + gap = next + 2 := by omega

theorem jpegParseFirst_run (hin : position ≤ picture.length) (hgap : gap = 1 ∨ gap = 2)
    (h : GetsThrough picture position gap) :
    ∃ jpeg cs, jpegParseFirst (picture.length + 1) picture position gap = some jpeg ∧
      jpeg.marker = chunkAt picture 0 (nextMarker picture position) :: cs ∧
      TilesFrom picture (nextMarker picture position) cs picture.length := by
  obtain ⟨hfree, hunst, hroom⟩ := h
  have hm := nextMarker_le hin
  have hlt : gpiJpegNew.marker.length < 20 := by decide
  obtain ⟨first, hmarker, hstep⟩ :=
    jpegStep_run (Nat.succ_pos picture.length) hfree hlt (Nat.zero_le _) hm
      fun jpeg next => jpegParseFrom (picture.length + 1) picture (picture.length + 1) jpeg next
        (next + gap)
  have hlen : first.marker.length = 1 := congrArg List.length hmarker
  obtain ⟨jpeg, cs, hjpeg, hcs, htiles⟩ :=
    jpegParseFrom_run (Nat.succ_pos picture.length) (Nat.lt_succ_of_le (Nat.sub_le _ _)) hm
      (gap_cases hgap _) hunst (by omega : first.marker.length + _ ≤ 20)
  refine ⟨jpeg, cs, hstep.trans hjpeg, ?_, htiles⟩
  rw [hcs, hmarker]
  rfl

theorem jpegParseFirst_none (hin : position ≤ picture.length) (hgap : gap = 1 ∨ gap = 2)
    (h : ¬GetsThrough picture position gap) :
    jpegParseFirst fuel picture position gap = none := by
  unfold jpegParseFirst
  by_cases hfree : StuffedAt picture position
  · exact jpegStep_stuffed hfree _
  · by_cases hfuel : 0 < fuel
    · have hm := nextMarker_le hin
      have hlt : gpiJpegNew.marker.length < 20 := by decide
      obtain ⟨first, hmarker, hstep⟩ := jpegStep_run hfuel hfree hlt (Nat.zero_le _) hm
        fun jpeg next => jpegParseFrom fuel picture fuel jpeg next (next + gap)
      have hlen : first.marker.length = 1 := congrArg List.length hmarker
      rw [hstep]
      exact jpegParseFrom_none hm (gap_cases hgap _)
        fun hgood => h ⟨hfree, hgood.1, by have hleft := hgood.2; omega⟩
    · have hzero : fuel = 0 := by omega
      subst hzero
      rfl

theorem nextMarker_zero : nextMarker picture 0 = toMarker picture := by
  unfold nextMarker
  rw [List.drop_zero, Nat.zero_add]

theorem stuffedAt_iff (position : Nat) :
    StuffedAt picture position ↔
      (picture.drop (nextMarker picture position + 1)).head? = some 0 := by
  have htail : picture.drop (nextMarker picture position + 1) =
      (picture.drop (nextMarker picture position)).drop 1 := by rw [drop_drop]
  rw [htail]
  constructor
  · rintro ⟨r, hr⟩
    rw [hr]
    rfl
  · intro h
    rcases marker_cases (picture.drop position) with ⟨hrest, -⟩ | ⟨hrest, -⟩ | ⟨c, r, hrest, -⟩
    all_goals
      rw [← drop_nextMarker] at hrest
      rw [hrest] at h
    · cases h
    · cases h
    · obtain rfl : c = 0 := Option.some.inj h
      exact ⟨r, hrest⟩

theorem getsThrough_marker (hin : 2 ≤ picture.length) :
    GetsThrough picture 2 2 ↔
      Unstuffed (picture.drop 2) ∧ markerCount (picture.drop 2) + 1 ≤ 20 := by
  unfold GetsThrough
  rcases marker_step hin with ⟨hstuffed, hno⟩ | ⟨hfree, hnext, hcount⟩
  · exact iff_of_false (fun h => h.1 hstuffed) fun h => hno h.1
  · rw [hnext, hcount]
    exact and_iff_right hfree

theorem getsThrough_other :
    GetsThrough picture 0 1 ↔
      (picture.drop (toMarker picture + 1)).head? ≠ some 0 ∧
        Unstuffed (picture.drop (toMarker picture + 1)) ∧
        markerCount (picture.drop (toMarker picture + 1)) + 2 ≤ 20 := by
  have hone : ¬(toMarker picture + 1 = toMarker picture + 2 ∧
      toMarker picture = picture.length) := by omega
  unfold GetsThrough
  rw [stuffedAt_iff, nextMarker_zero, chunksLeft, if_neg hone]

theorem parse_iff_getsThrough (hin : position ≤ picture.length) (hgap : gap = 1 ∨ gap = 2)
    (hparse : ∀ fuel, gpiJpegParse fuel gpiJpegNew picture =
      jpegParseFirst fuel picture position gap)
    (hcut : ∀ cs, TilesFrom picture (nextMarker picture position) cs picture.length →
      ∃ before markers, chunkAt picture 0 (nextMarker picture position) :: cs = before ++ markers ∧
        CutAtMarkers picture before markers) :
    (∃ fuel jpeg, gpiJpegParse fuel gpiJpegNew picture = some jpeg ∧
      ∃ before markers, jpeg.marker = before ++ markers ∧
        CutAtMarkers picture before markers) ↔ GetsThrough picture position gap := by
  constructor
  · rintro ⟨fuel, jpeg, hrun, -⟩
    by_contra hbad
    rw [hparse, jpegParseFirst_none hin hgap hbad] at hrun
    cases hrun
  · intro hgood
    obtain ⟨jpeg, cs, hrun, hmarker, htiles⟩ := jpegParseFirst_run hin hgap hgood
    obtain ⟨before, markers, happend, hwhole⟩ := hcut cs htiles
    exact ⟨_, jpeg, (hparse _).trans hrun, before, markers, hmarker.trans happend, hwhole⟩

/-- The parser ends, has stored what it should and cut the picture at its markers, if and only
if the picture is `Parseable`. -/
theorem jpeg_parse_iff (picture : List UInt8) :
    (∃ fuel jpeg, gpiJpegParse fuel gpiJpegNew picture = some jpeg ∧
      ∃ before markers, jpeg.marker = before ++ markers ∧
        CutAtMarkers picture before markers) ↔ Parseable picture := by
  unfold Parseable
  by_cases hhead : picture.head? = some 0xff
  · rw [if_pos hhead]
    by_cases htwo : 2 ≤ picture.length
    · rw [and_iff_right htwo, ← getsThrough_marker htwo]
      refine parse_iff_getsThrough htwo (Or.inr rfl) (fun fuel => gpiJpegParse_marker hhead) ?_
      intro cs htiles
      have hzero : toMarker picture = 0 := by
        cases picture with
        | nil => cases hhead
        | cons b rest => exact (toMarker_cons b rest).trans (if_pos (Option.some.inj hhead))
      refine ⟨[], _, rfl, cutAtMarkers hzero.symm ?_⟩
      rw [hzero]
      exact (tilesFrom_chunkAt (Nat.zero_le _) (nextMarker_le htwo)).append htiles
    · refine iff_of_false ?_ fun h => htwo h.1
      rintro ⟨fuel, jpeg, hrun, -⟩
      rw [gpiJpegParse_short hhead htwo] at hrun
      cases hrun
  · rw [if_neg hhead]
    cases picture with
    | nil =>
      refine iff_of_false ?_ fun h => h.1 rfl
      rintro ⟨fuel, jpeg, hrun, -⟩
      cases hrun
    | cons b rest =>
      have hb : b ≠ 0xff := fun h => hhead (congrArg some h)
      rw [and_iff_right (List.cons_ne_nil b rest), ← getsThrough_other]
      refine parse_iff_getsThrough (Nat.zero_le _) (Or.inl rfl)
        (fun fuel => gpiJpegParse_other hb) ?_
      intro cs htiles
      rw [nextMarker_zero] at htiles ⊢
      exact ⟨[_], cs, rfl, cutAtMarkers
        (tilesFrom_chunkAt (Nat.zero_le _) (toMarker_le _)) htiles⟩

/-- A zero behind a byte `0xff`: the search finds the same byte again and again. -/
theorem jpeg_parse_hangs :
    ¬∀ picture : List UInt8, ∃ fuel jpeg, gpiJpegParse fuel gpiJpegNew picture = some jpeg ∧
      ∃ before markers, jpeg.marker = before ++ markers ∧
        CutAtMarkers picture before markers := by
  intro h
  obtain ⟨fuel, jpeg, hrun, -⟩ := h [0xff, 0xd8, 0xff, 0]
  have hstuffed : StuffedAt [0xff, 0xd8, 0xff, 0] 2 := ⟨[], rfl⟩
  rw [gpiJpegParse_marker rfl, jpegParseFirst, jpegStep_stuffed hstuffed] at hrun
  cases hrun

end

end GPhoto2
