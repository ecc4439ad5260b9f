import GPhoto2.Lib.Outcome
import GPhoto2.Pentax.Pslr
import Mathlib.Algebra.GroupWithZero.Nat

/-!
# `GPhoto2.Proofs.Pentax.Pslr`: which buffers are read as they are in the camera

`pslrSound_iff`: an open stays in the table, and the reads after it bring the data segments, exactly
for the infos that fit into the table of the handle (`PslrFits`).
-/

set_option autoImplicit false

namespace GPhoto2.Pentax

open Lib
open List (append_assoc append_nil drop_zero filter_nil length_append length_drop length_nil
  length_singleton length_take map_nil nil_prefix)
open UInt32 (le_iff_toNat_le lt_iff_toNat_lt toNat_inj toNat_sub_of_le toNat_zero)
open Lib.Comp (Ends bind_run_ok)

variable (memory : UInt32 → UInt8) (infos : Nat → SegmentInfo)

/-! ### What is to be read -/

/-- The infos that an open asks for: up to the first one of type 2, and `rounds` at most. -/
def asked : Nat → Nat → List SegmentInfo
  | 0, _ => []
  | rounds + 1, i => infos i :: if (infos i).b = 2 then [] else asked rounds (i + 1)

/-- The addresses and the lengths of the data segments. -/
def dataSegments (asked : List SegmentInfo) : List (UInt32 × UInt32) :=
  (asked.filter (·.b = 3)).map fun info => (info.addr, info.length)

def totalLength (extents : List (UInt32 × UInt32)) : Nat := (extents.map (·.2.toNat)).sum

def contents (extents : List (UInt32 × UInt32)) : List UInt8 :=
  (extents.map fun extent => memoryAt memory extent.1 extent.2).flatten

/-- The table, as far as reading goes. -/
def stored (p : PslrHandle) : List (UInt32 × UInt32) :=
  p.segments.toList.map fun segment => (segment.addr, segment.length)

/-- The lengths that a read subtracts are not larger than those it subtracts them from. -/
def NoWrap (p : PslrHandle) : Prop :=
  ∀ i pos segment, currentSegment p p.segmentCount.toNat 0 0 = some (i, pos) →
    p.segments[i]? = some segment → pos ≤ p.offset ∧ p.offset - pos ≤ segment.length

/-- The calls from the `n`-th on, until one returns 0, bring `data`. The download of the last
one ends with the code `ret`. -/
inductive Reading (calls : Nat → ReadCall) : Nat → PslrHandle → List UInt8 → Int → Prop
  | last {n : Nat} {p p' : PslrHandle} {ret : Int} (hwrap : NoWrap p)
      (hread : pslrBufferRead memory (calls n) p = some (ret, [], p')) : Reading calls n p [] ret
  | more {n : Nat} {p p' : PslrHandle} {ret last : Int} {bytes data : List UInt8}
      (hwrap : NoWrap p) (hread : pslrBufferRead memory (calls n) p = some (ret, bytes, p'))
      (hbytes : bytes ≠ []) (rest : Reading calls (n + 1) p' data last) :
      Reading calls n p (bytes ++ data) last

/-- An open ends inside the table. If it returns `PSLR_OK`, the reads come to an end inside the
table; they bring the data segments, as many bytes as `pslr_buffer_get_size` has announced, or
the beginning of them if a download fails. -/
def PslrSound (p : PslrHandle) (infos : Nat → SegmentInfo) : Prop :=
  ∀ answers bufno, ∃ result p', pslrBufferOpen infos answers bufno p = some (result, p') ∧
    (result = .ok () → ∀ memory calls, (∀ n, 0 < (calls n).size) →
      ∃ data ret, Reading memory calls 0 p' data ret ∧
        data <+: contents memory (dataSegments (asked infos 9 0)) ∧
        (ret = pslrOk → data = contents memory (dataSegments (asked infos 9 0)) ∧
          ∃ size, pslrBufferGetSize p' = some size ∧ data.length = size.toNat))

/-- No offset info comes right when the table is full of data segments. Unless there are more
data segments than the table has room for, their lengths add up to a 32-bit number, and the entry
behind them is in the table and of length 0. -/
def PslrFits (p : PslrHandle) (infos : Nat → SegmentInfo) : Prop :=
  (∀ before info after, asked infos 9 0 = before ++ info :: after → info.b = 4 →
    (dataSegments before).length ≠ maxSegments) ∧
  ((dataSegments (asked infos 9 0)).length ≤ maxSegments →
    totalLength (dataSegments (asked infos 9 0)) < 2 ^ 32 ∧
    ∃ addr, (stored p)[(dataSegments (asked infos 9 0)).length]? = some (addr, 0))

variable {memory infos}

/-! ### The memory of the camera -/

@[simp] theorem length_memoryAt (addr length : UInt32) :
    (memoryAt memory addr length).length = length.toNat := by
  simp [memoryAt]

theorem memoryAt_part {addr length off part : UInt32} (h : off.toNat + part.toNat ≤ length.toNat) :
    ((memoryAt memory addr length).drop off.toNat).take part.toNat =
      memoryAt memory (addr + off) part := by
  refine List.ext_getElem (by simp; omega) ?_
  intro i hi hi'
  simp only [memoryAt, List.getElem_take, List.getElem_drop, List.getElem_map, List.getElem_range]
  rw [UInt32.ofNat_add, UInt32.ofNat_toNat, UInt32.add_assoc]

theorem memoryAt_split {addr length block : UInt32} (h : block ≤ length) :
    memoryAt memory addr block ++ memoryAt memory (addr + block) (length - block) =
      memoryAt memory addr length := by
  have hle := le_iff_toNat_le.mp h
  have hsub := toNat_sub_of_le length block h
  have hfront := @memoryAt_part memory addr length 0 block (by simpa using hle)
  have hback := @memoryAt_part memory addr length block (length - block) (by omega)
  rw [UInt32.add_zero, toNat_zero, drop_zero] at hfront
  rw [List.take_of_length_le (by simp; omega)] at hback
  rw [← hfront, ← hback, List.take_append_drop]

theorem length_contents (extents : List (UInt32 × UInt32)) :
    (contents memory extents).length = totalLength extents := by
  simp [contents, totalLength, Function.comp_def, List.length_flatten]

/-! ### A download -/

theorem ipslrDownload_ok {answer : Nat → BlockAnswer} {k retry : Nat} {addr length : UInt32}
    {buf data : List UInt8}
    (h : ipslrDownload memory answer k retry addr length buf = (pslrOk, data)) :
    data = buf ++ memoryAt memory addr length := by
  fun_induction ipslrDownload memory answer k retry addr length buf with
  | case1 => simp_all [memoryAt]
  | case2 _ _ _ _ _ _ hcommand => exact absurd (congrArg Prod.fst h) hcommand
  | case3 k retry addr length buf hlength block _ _ ih =>
    have hle : block ≤ length := by
      rw [le_iff_toNat_le, toNat_atMost]
      exact Nat.min_le_right _ _
    rw [ih h, append_assoc, memoryAt_split hle]
  | case4 _ _ _ _ _ _ _ _ _ ih => exact ih h
  | case5 => cases h

/-- Every request of the downloads is answered. -/
def Answered (answer : Nat → BlockAnswer) : Prop :=
  ∀ k, (answer k).command = pslrOk ∧ (answer k).received = true

theorem ipslrDownload_answered {answer : Nat → BlockAnswer} (h : Answered answer) (k retry : Nat)
    (addr length : UInt32) (buf : List UInt8) :
    (ipslrDownload memory answer k retry addr length buf).1 = pslrOk := by
  fun_induction ipslrDownload memory answer k retry addr length buf with
  | case1 => rfl
  | case2 k _ _ _ _ _ hcommand => exact absurd (h k).1 hcommand
  | case3 _ _ _ _ _ _ _ _ _ ih => exact ih
  | case4 k _ _ _ _ _ _ hreceived => exact absurd (h k).2 hreceived
  | case5 k _ _ _ _ _ _ hreceived => exact absurd (h k).2 hreceived

/-! ### Opening -/

variable {answers : OpenAnswers} {p : PslrHandle}

theorem dataSegments_cons (info : SegmentInfo) (rest : List SegmentInfo) :
    dataSegments (info :: rest) = dataSegments [info] ++ dataSegments rest := by
  by_cases h : info.b = 3 <;> simp [dataSegments, h]

theorem length_stored (p : PslrHandle) : (stored p).length = maxSegments := by
  simp [stored]

/-- Behind `front`, the table has the extents, and then what it had there before. -/
def Entered (front tail extents : List (UInt32 × UInt32)) (j : Nat) (p : PslrHandle) : Prop :=
  j = (front ++ extents).length ∧ stored p = (front ++ extents) ++ tail.drop extents.length

theorem entered_nil {front tail : List (UInt32 × UInt32)} (h : stored p = front ++ tail) :
    Entered front tail [] front.length p := by
  unfold Entered
  rw [append_nil]
  exact ⟨rfl, h⟩

theorem entered_append {front tail extents extents' : List (UInt32 × UInt32)} {j : Nat} :
    Entered (front ++ extents) (tail.drop extents.length) extents' j p ↔
      Entered front tail (extents ++ extents') j p := by
  unfold Entered
  rw [append_assoc, @length_append _ extents, List.drop_drop]

theorem enterInfo_ends {info : SegmentInfo} {front tail : List (UInt32 × UInt32)}
    (hstored : stored p = front ++ tail) (hoffset : info.b = 4 → front.length ≠ maxSegments) :
    Ends (Entered front tail (dataSegments [info]))
      (fun _ _ => maxSegments < (front ++ dataSegments [info]).length)
      (enterInfo info front.length p) := by
  have hlength := congrArg List.length hstored
  rw [length_stored, length_append] at hlength
  unfold enterInfo
  refine .ite (fun h4 => ?_) fun h4 => .ite (fun h3 => ?_) fun h3 => ?_
  -- An offset is stored beside the extent that is there already.
  · have hlt : front.length < maxSegments := by
      have hne := hoffset h4
      omega
    rw [dif_pos hlt]
    have hnil : dataSegments [info] = [] := by simp [dataSegments, h4]
    rw [hnil]
    refine .modify_bind (.pure (entered_nil ?_))
    rw [← hstored]
    refine List.ext_getElem? fun k => ?_
    by_cases hk : front.length = k
    · subst hk
      simp [stored, Vector.toList_set, hlt]
    · simp [stored, Vector.toList_set, List.getElem?_set_ne hk]
  -- The extent takes the place of the first one of the tail.
  · have hone : dataSegments [info] = [(info.addr, info.length)] := by simp [dataSegments, h3]
    rw [hone, length_append, length_singleton]
    by_cases hlt : front.length < maxSegments
    · rw [dif_pos hlt]
      refine .modify_bind (.pure ⟨by rw [length_append, length_singleton], ?_⟩)
      cases tail with
      | nil => exact absurd hlength (by simp; omega)
      | cons entry tail =>
        show stored _ = _
        rw [stored] at hstored ⊢
        rw [Vector.toList_set, List.map_set, hstored, List.set_append_right _ _ (Nat.le_refl _)]
        simp
    · have hfull : front.length = maxSegments := by omega
      rw [dif_neg hlt, if_pos hfull]
      exact .throw (by omega)
  · have hnil : dataSegments [info] = [] := by simp [dataSegments, h3]
    rw [hnil]
    exact .pure (entered_nil hstored)

/-- The requests for the infos of the selected buffer are answered. -/
def OpenAnswers.Answered (answers : OpenAnswers) : Prop :=
  ∀ i, answers.segmentInfo i = pslrOk ∧ answers.nextSegment i = pslrOk

theorem check_bind_ends {α : Type} {code : Int} {k : Unit → Comp PslrHandle Int α}
    {Q : α → PslrHandle → Prop} {E : Int → PslrHandle → Prop} (hcheck : code ≠ pslrOk → E code p)
    (hk : Ends Q E (k () p)) : Ends Q E ((check code >>= k) p) := by
  unfold check
  by_cases h : code ≠ pslrOk
  · rw [if_pos h]
    exact hcheck h
  · rw [if_neg h]
    exact hk

/-- The loop puts the data segments behind those that are entered already. -/
theorem enterInfos_ends {rounds i : Nat} {front tail : List (UInt32 × UInt32)}
    (hstored : stored p = front ++ tail)
    (hoffset : ∀ before info after, asked infos rounds i = before ++ info :: after → info.b = 4 →
      (front ++ dataSegments before).length ≠ maxSegments) :
    Ends (Entered front tail (dataSegments (asked infos rounds i)))
      (fun _ _ => answers.Answered →
        maxSegments < (front ++ dataSegments (asked infos rounds i)).length)
      (enterInfos infos answers rounds i front.length p) := by
  induction rounds generalizing i front tail p with
  | zero =>
    exact .pure (entered_nil hstored)
  | succ rounds ih =>
    rw [asked] at hoffset ⊢
    rw [dataSegments_cons, ← append_assoc]
    refine check_bind_ends (fun h hanswered => absurd (hanswered i).1 h) ?_
    have hhead : (infos i).b = 4 → front.length ≠ maxSegments := by
      have h := hoffset [] (infos i) _ rfl
      rwa [dataSegments, filter_nil, map_nil, append_nil] at h
    refine .bind ((enterInfo_ends hstored hhead).mono (fun _ _ h => h) ?_) ?_
    · intro _ _ hfull _
      rw [length_append]
      omega
    · rintro _ p' ⟨rfl, hstored'⟩
      refine check_bind_ends (fun h hanswered => absurd (hanswered i).2 h) ?_
      refine .ite (fun hlast => ?_) fun hlast => ?_
      · rw [if_pos hlast]
        exact .pure (entered_append.mp (entered_nil hstored'))
      · rw [if_neg hlast] at hoffset ⊢
        refine (ih hstored' ?_).mono (fun _ _ => entered_append.mp) fun _ _ h => h
        intro before info after hbefore hinfo
        have h := hoffset (infos i :: before) info after (by rw [hbefore]; rfl) hinfo
        rwa [dataSegments_cons, ← append_assoc] at h

theorem recoverLast_ends (rounds k : Nat) :
    Ends (fun _ p' => p' = p) (fun _ _ => True) (recoverLast answers rounds k p) := by
  induction rounds generalizing k with
  | zero => exact .pure rfl
  | succ rounds ih =>
    refine check_bind_ends (fun _ => trivial) (check_bind_ends (fun _ => trivial) ?_)
    exact .ite (fun _ => .pure rfl) fun _ => ih (k + 1)

theorem selectBuffer_ends (tries retry : Nat) :
    Ends (fun _ p' => p' = p) (fun _ _ => answers.selectBuffer retry = pslrOk → tries = 0)
      (selectBuffer answers tries retry p) := by
  induction tries generalizing retry with
  | zero => exact .throw fun _ => rfl
  | succ tries ih =>
    refine .ite (fun _ => .pure rfl) fun hcode => ?_
    refine .bind ((recoverLast_ends 10 (10 * retry)).mono (fun _ _ h => h)
      fun _ _ _ h => absurd h hcode) ?_
    rintro _ _ rfl
    exact (ih (retry + 1)).mono (fun _ _ h => h) fun _ _ _ h => absurd h hcode

/-- The handle after an open, with the data segments in the table and none of them read. -/
structure Opened (p : PslrHandle) (extents tail : List (UInt32 × UInt32)) : Prop where
  entries : stored p = extents ++ tail
  count : p.segmentCount.toNat = extents.length

theorem pslrBufferOpen_ends {bufno : Nat}
    (hoffset : ∀ before info after, asked infos 9 0 = before ++ info :: after → info.b = 4 →
      (dataSegments before).length ≠ maxSegments) :
    Ends (fun _ p' => Opened p' (dataSegments (asked infos 9 0))
        ((stored p).drop (dataSegments (asked infos 9 0)).length) ∧ p'.offset = 0)
      (fun _ _ => answers.statusFull = pslrOk → answers.bufmask.toNat.testBit bufno = true →
        answers.selectBuffer 0 = pslrOk → answers.Answered →
        maxSegments < (dataSegments (asked infos 9 0)).length)
      (pslrBufferOpen infos answers bufno p) := by
  refine check_bind_ends (fun h hstatus => absurd hstatus h) ?_
  refine .ite (fun hbit => .throw fun _ hbit' => ?_) fun _ => ?_
  · rw [hbit] at hbit'
    cases hbit'
  · refine .bind ((selectBuffer_ends 3 0).mono (fun _ _ h => h)
      fun _ _ h _ _ hselect => absurd (h hselect) (by decide)) ?_
    rintro _ p rfl
    refine .bind ((@enterInfos_ends infos answers p 9 0 [] (stored p) rfl hoffset).mono
      (fun _ _ h => h) fun _ _ h _ _ _ hanswered => h hanswered) ?_
    rintro _ p' ⟨rfl, hstored⟩
    refine .modify ⟨⟨hstored, ?_⟩, rfl⟩
    have hlength := congrArg List.length hstored
    rw [length_stored, length_append] at hlength
    show (UInt32.ofNat _).toNat = _
    rw [UInt32.toNat_ofNat_of_lt' (by rw [maxSegments] at hlength; rw [UInt32.size]; omega)]
    rfl

theorem check_answered {code : Int} (h : code = pslrOk) : check code p = some (.ok (), p) := by
  rw [check, if_neg (by simpa using h)]
  rfl

theorem enterInfo_stuck {info : SegmentInfo} (h : info.b = 4) :
    enterInfo info maxSegments p = none := by
  rw [enterInfo, if_pos h, dif_neg (Nat.lt_irrefl _)]
  rfl

theorem enterInfos_stuck {rounds i : Nat} {front tail : List (UInt32 × UInt32)}
    (hanswered : answers.Answered) (hstored : stored p = front ++ tail)
    {before after : List SegmentInfo} {info : SegmentInfo}
    (hasked : asked infos rounds i = before ++ info :: after) (hinfo : info.b = 4)
    (hfull : (front ++ dataSegments before).length = maxSegments) :
    enterInfos infos answers rounds i front.length p = none := by
  induction rounds generalizing i front tail before p with
  | zero =>
    rw [asked] at hasked
    cases before <;> cases hasked
  | succ rounds ih =>
    rw [asked] at hasked
    show (check _ >>= _) p = none
    rw [bind_run_ok (check_answered (hanswered i).1)]
    -- Only the round of that info leaves the table; the ones before it enter theirs.
    by_cases hstuck : (infos i).b = 4 ∧ front.length = maxSegments
    · rw [hstuck.2]
      exact Comp.bind_run_none (enterInfo_stuck hstuck.1)
    · cases before with
      | nil =>
        obtain ⟨rfl, _⟩ := List.cons.inj hasked
        rw [dataSegments, filter_nil, map_nil, append_nil] at hfull
        exact absurd ⟨hinfo, hfull⟩ hstuck
      | cons first before =>
        obtain ⟨rfl, hrest⟩ := List.cons.inj hasked
        have hlast : ¬ (infos i).b = 2 := by
          intro h
          rw [if_pos h] at hrest
          cases before <;> cases hrest
        rw [if_neg hlast] at hrest
        rw [dataSegments_cons, ← append_assoc] at hfull
        have hroom : (front ++ dataSegments [infos i]).length ≤ maxSegments := by
          rw [← hfull, @length_append _ (front ++ _)]
          exact Nat.le_add_right _ _
        obtain ⟨_, p', hrun, rfl, hstored'⟩ := (enterInfo_ends hstored fun h h' =>
          hstuck ⟨h, h'⟩).exists_ok fun _ _ h => Nat.not_lt_of_le hroom h
        rw [bind_run_ok hrun, bind_run_ok (check_answered (hanswered i).2), if_neg hlast]
        exact ih hstored' hrest hfull

theorem pslrBufferOpen_answered {bufno : Nat} (hstatus : answers.statusFull = pslrOk)
    (hbit : answers.bufmask.toNat.testBit bufno = true)
    (hselect : answers.selectBuffer 0 = pslrOk) :
    pslrBufferOpen infos answers bufno p = (enterInfos infos answers 9 0 0 >>= fun j =>
      Comp.modify fun p => { p with segmentCount := UInt32.ofNat j, offset := 0 }) p := by
  show (check _ >>= _) p = _
  rw [bind_run_ok (check_answered hstatus), hbit, if_neg Bool.noConfusion]
  have hrun : selectBuffer answers 3 0 p = some (.ok (), p) := by
    rw [selectBuffer, if_pos hselect]
    rfl
  exact bind_run_ok hrun

/-! ### A read -/

theorem stored_getElem? (p : PslrHandle) (i : Nat) : (stored p)[i]? =
    (p.segments[i]?).map fun segment => (segment.addr, segment.length) := by
  simp [stored]

theorem exists_segment {front rest : List (UInt32 × UInt32)} {extent : UInt32 × UInt32}
    (h : stored p = front ++ extent :: rest) : ∃ segment, p.segments[front.length]? = some segment ∧
      (segment.addr, segment.length) = extent := by
  refine Option.map_eq_some_iff.mp ?_
  rw [← stored_getElem?, h]
  simp

theorem toNat_add_of_lt {a b : UInt32} (h : a.toNat + b.toNat < 2 ^ 32) :
    (a + b).toNat = a.toNat + b.toNat := by
  rw [UInt32.toNat_add, Nat.mod_eq_of_lt h]

theorem totalLength_cons (addr length : UInt32) (extents : List (UInt32 × UInt32)) :
    totalLength ((addr, length) :: extents) = length.toNat + totalLength extents := by
  simp [totalLength]

theorem totalLength_append (extents extents' : List (UInt32 × UInt32)) :
    totalLength (extents ++ extents') = totalLength extents + totalLength extents' := by
  simp [totalLength]

/-- The segment the offset of the handle is in, or the end of the data segments. -/
theorem currentSegment_cases {front extents tail : List (UInt32 × UInt32)} {pos : UInt32}
    (hstored : stored p = front ++ (extents ++ tail))
    (hsum : pos.toNat + totalLength extents < 2 ^ 32) (hpos : pos.toNat ≤ p.offset.toNat)
    (hoffset : p.offset.toNat ≤ pos.toNat + totalLength extents) :
    (∃ before segment after pos', extents = before ++ (segment.addr, segment.length) :: after ∧
      currentSegment p extents.length front.length pos =
        some (front.length + before.length, pos') ∧
      p.segments[front.length + before.length]? = some segment ∧
      pos'.toNat = pos.toNat + totalLength before ∧ pos'.toNat ≤ p.offset.toNat ∧
      p.offset.toNat < pos'.toNat + segment.length.toNat) ∨
    (p.offset.toNat = pos.toNat + totalLength extents ∧
      currentSegment p extents.length front.length pos =
        some (front.length + extents.length, p.offset)) := by
  induction extents generalizing front pos with
  | nil =>
    have hend : pos = p.offset := toNat_inj.mp (by simp [totalLength] at hoffset; omega)
    exact Or.inr ⟨by rw [hend]; rfl, by rw [hend]; rfl⟩
  | cons extent extents ih =>
    obtain ⟨segment, hsegment, rfl⟩ := exists_segment hstored
    rw [totalLength_cons] at hsum hoffset ⊢
    have hadd := @toNat_add_of_lt pos segment.length (by omega)
    have hround : currentSegment p (extents.length + 1) front.length pos =
        if p.offset < pos + segment.length then some (front.length, pos)
        else currentSegment p extents.length (front.length + 1) (pos + segment.length) := by
      rw [currentSegment, hsegment]
      rfl
    rw [List.length_cons, hround]
    -- The sum does not wrap, and so the test of the loop compares numbers.
    by_cases hhere : p.offset < pos + segment.length
    · have hlt := lt_iff_toNat_lt.mp hhere
      rw [if_pos hhere]
      exact Or.inl ⟨[], _, extents, pos, rfl, rfl, hsegment, rfl, hpos, by rwa [hadd] at hlt⟩
    · have hge := mt lt_iff_toNat_lt.mpr hhere
      rw [if_neg hhere]
      have hnext := @ih (front ++ [(segment.addr, segment.length)]) (pos + segment.length)
        (by rw [hstored, append_assoc]; rfl) (by omega) (by omega) (by omega)
      rw [length_append, length_singleton] at hnext
      rcases hnext with ⟨before, current, after, pos', rfl, hrun, hcurrent, hpos', hin⟩ |
        ⟨hend, hrun⟩
      · rw [Nat.add_assoc, Nat.add_comm 1] at hrun hcurrent
        refine Or.inl ⟨(segment.addr, segment.length) :: before, current, after, pos', rfl, hrun,
          hcurrent, ?_, hin⟩
        rw [totalLength_cons]
        omega
      · refine Or.inr ⟨by omega, ?_⟩
        rw [hrun, Nat.add_assoc, Nat.add_comm 1]

variable {call : ReadCall} {i : Nat} {pos : UInt32} {segment : Segment}

/-- The number of bytes that are asked for from a segment. -/
def readSize (call : ReadCall) (p : PslrHandle) (pos : UInt32) (segment : Segment) : Nat :=
  min blockSize.toNat (min (segment.length.toNat - (p.offset.toNat - pos.toNat)) call.size.toNat)

theorem pslrBufferRead_cases
    (hcurrent : currentSegment p p.segmentCount.toNat 0 0 = some (i, pos))
    (hsegment : p.segments[i]? = some segment) (hpos : pos.toNat ≤ p.offset.toNat)
    (hin : p.offset.toNat - pos.toNat ≤ segment.length.toNat) :
    (∃ ret, ret ≠ pslrOk ∧ pslrBufferRead memory call p = some (ret, [], p)) ∨
    ∃ size : UInt32, size.toNat = readSize call p pos segment ∧
      pslrBufferRead memory call p = some (pslrOk,
        ((memoryAt memory segment.addr segment.length).drop (p.offset.toNat - pos.toNat)).take
          size.toNat, { p with offset := p.offset + size }) := by
  have hoffs := toNat_sub_of_le p.offset pos (le_iff_toNat_le.mpr hpos)
  have hleft := toNat_sub_of_le segment.length (p.offset - pos)
    (le_iff_toNat_le.mpr (by omega))
  have hsize : (atMost blockSize (atMost (segment.length - (p.offset - pos)) call.size)).toNat =
      readSize call p pos segment := by
    rw [toNat_atMost, toNat_atMost, hleft, hoffs, readSize]
  generalize hblock : atMost blockSize (atMost (segment.length - (p.offset - pos)) call.size) =
    size at hsize
  obtain ⟨⟨ret, buf⟩, hload⟩ : ∃ r, ipslrDownload memory call.answer 0 0
    (segment.addr + (p.offset - pos)) size [] = r := ⟨_, rfl⟩
  have hread : pslrBufferRead memory call p = if ret ≠ pslrOk then some (ret, [], p)
      else some (ret, buf, { p with offset := p.offset + size }) := by
    rw [pslrBufferRead, hcurrent]
    show (p.segments[i]?.bind _) = _
    rw [hsegment]
    show (if (ipslrDownload memory call.answer 0 0 (segment.addr + (p.offset - pos))
      (atMost blockSize (atMost (segment.length - (p.offset - pos)) call.size)) []).1 ≠ pslrOk
      then _ else _) = _
    rw [hblock, hload]
  by_cases hret : ret ≠ pslrOk
  · exact Or.inl ⟨ret, hret, by rw [hread, if_pos hret]⟩
  · obtain rfl := Decidable.not_not.mp hret
    refine Or.inr ⟨size, hsize, ?_⟩
    have hbuf := ipslrDownload_ok hload
    rw [hread, if_neg hret, hbuf, List.nil_append, ← hoffs, memoryAt_part]
    rw [hoffs, hsize, readSize]
    omega

theorem pslrBufferRead_answered {ret : Int} {bytes : List UInt8} {p' : PslrHandle}
    (h : Answered call.answer) (hread : pslrBufferRead memory call p = some (ret, bytes, p')) :
    ret = pslrOk := by
  obtain ⟨_, _, hread⟩ := Option.bind_eq_some_iff.mp hread
  obtain ⟨_, _, hread⟩ := Option.bind_eq_some_iff.mp hread
  have hload := fun addr length => @ipslrDownload_answered memory _ h 0 0 addr length []
  change (if (ipslrDownload _ _ _ _ _ _ _).1 ≠ pslrOk then _ else some (_, _, _)) = _ at hread
  rw [if_neg (by simpa using hload _ _)] at hread
  rw [← hload]
  exact (congrArg Prod.fst (Option.some.inj hread)).symm

theorem noWrap_of_current (hcurrent : currentSegment p p.segmentCount.toNat 0 0 = some (i, pos))
    (hsegment : p.segments[i]? = some segment) (hpos : pos.toNat ≤ p.offset.toNat)
    (hin : p.offset.toNat - pos.toNat ≤ segment.length.toNat) : NoWrap p := by
  intro i' pos' segment' hcurrent' hsegment'
  obtain ⟨rfl, rfl⟩ := Prod.mk.inj (Option.some.inj (hcurrent.symm.trans hcurrent'))
  obtain rfl := Option.some.inj (hsegment.symm.trans hsegment')
  refine ⟨le_iff_toNat_le.mpr hpos, le_iff_toNat_le.mpr ?_⟩
  rwa [toNat_sub_of_le _ _ (le_iff_toNat_le.mpr hpos)]

theorem contents_append (extents extents' : List (UInt32 × UInt32)) :
    contents memory (extents ++ extents') =
      contents memory extents ++ contents memory extents' := by
  simp [contents]

variable {extents tail : List (UInt32 × UInt32)}

/-- A read in front of the end of the data fails or brings the next bytes of them. -/
theorem Opened.read_data (h : Opened p extents tail) (hsum : totalLength extents < 2 ^ 32)
    (hoffset : p.offset.toNat < totalLength extents) (hcall : 0 < call.size) :
    NoWrap p ∧ ((∃ ret, ret ≠ pslrOk ∧ pslrBufferRead memory call p = some (ret, [], p)) ∨
      ∃ size p', 0 < size ∧ p.offset.toNat + size ≤ totalLength extents ∧
        pslrBufferRead memory call p =
          some (pslrOk, ((contents memory extents).drop p.offset.toNat).take size, p') ∧
        Opened p' extents tail ∧ p'.offset.toNat = p.offset.toNat + size) := by
  rcases @currentSegment_cases p [] extents tail 0 h.entries (by simpa using hsum) (Nat.zero_le _)
    (by simpa using Nat.le_of_lt hoffset) with
    ⟨before, segment, after, pos, rfl, hcurrent, hsegment, hpos, hle, hlt⟩ | ⟨hend, _⟩
  · rw [← h.count, length_nil, Nat.zero_add] at hcurrent
    rw [length_nil, Nat.zero_add] at hsegment
    have hin : p.offset.toNat - pos.toNat ≤ segment.length.toNat := by omega
    have hfront : (contents memory before).length = pos.toNat := by
      rw [length_contents, hpos, toNat_zero, Nat.zero_add]
    have htotal : totalLength (before ++ (segment.addr, segment.length) :: after) =
        pos.toNat + (segment.length.toNat + totalLength after) := by
      rw [totalLength_append, totalLength_cons, hpos, toNat_zero, Nat.zero_add]
    refine ⟨noWrap_of_current hcurrent hsegment hle hin,
      (pslrBufferRead_cases hcurrent hsegment hle hin).imp_right ?_⟩
    rintro ⟨size, hsize, hread⟩
    have hblock : blockSize.toNat = 65536 := rfl
    have hpositive : 0 < call.size.toNat := lt_iff_toNat_lt.mp hcall
    rw [readSize] at hsize
    have hadd := @toNat_add_of_lt p.offset size (by omega)
    refine ⟨size.toNat, { p with offset := p.offset + size }, by omega, by omega, ?_,
      ⟨h.entries, h.count⟩, hadd⟩
    have hdata : (contents memory (before ++ (segment.addr, segment.length) :: after)).drop
        p.offset.toNat = (memoryAt memory segment.addr segment.length).drop
          (p.offset.toNat - pos.toNat) ++ contents memory after := by
      rw [contents_append, List.drop_append, List.drop_eq_nil_of_le (by omega), hfront,
        List.nil_append]
      exact List.drop_append_of_le_length (by simpa using hin)
    rw [hread, hdata, List.take_append_of_le_length (by simp; omega)]
  · rw [toNat_zero, Nat.zero_add] at hend
    omega

theorem Opened.current_end (h : Opened p extents tail) (hsum : totalLength extents < 2 ^ 32)
    (hoffset : p.offset.toNat = totalLength extents) :
    currentSegment p p.segmentCount.toNat 0 0 = some (extents.length, p.offset) := by
  rcases @currentSegment_cases p [] extents tail 0 h.entries (by simpa using hsum) (Nat.zero_le _)
    (by simpa using Nat.le_of_eq hoffset) with
    ⟨before, segment, after, pos, rfl, _, _, hpos, _, hlt⟩ | ⟨_, hcurrent⟩
  · rw [hoffset, hpos, totalLength_append, totalLength_cons, toNat_zero] at hlt
    omega
  · rw [length_nil, Nat.zero_add] at hcurrent
    rw [h.count, hcurrent]

theorem Opened.segment_end (h : Opened p extents tail) :
    (p.segments[extents.length]?).map (fun segment => (segment.addr, segment.length)) =
      tail.head? := by
  rw [← stored_getElem?, h.entries, List.getElem?_append_right (Nat.le_refl _), Nat.sub_self,
    List.head?_eq_getElem?]

theorem Opened.reading {calls : Nat → ReadCall} (hcalls : ∀ n, 0 < (calls n).size)
    (hsum : totalLength extents < 2 ^ 32) {addr : UInt32} (htail : tail.head? = some (addr, 0))
    {n left : Nat} (h : Opened p extents tail)
    (hleft : p.offset.toNat + left = totalLength extents) :
    ∃ data ret, Reading memory calls n p data ret ∧
      data <+: (contents memory extents).drop p.offset.toNat ∧
      (ret = pslrOk → data = (contents memory extents).drop p.offset.toNat) := by
  -- Each read that brings something leaves fewer bytes.
  induction left using Nat.strongRecOn generalizing n p with
  | ind left ih =>
    by_cases hend : left = 0
    · subst hend
      have hdrop : (contents memory extents).drop p.offset.toNat = [] :=
        List.drop_eq_nil_of_le (by rw [length_contents]; omega)
      rw [hdrop]
      have hentry := h.segment_end
      rw [htail] at hentry
      obtain ⟨segment, hsegment, hextent⟩ := Option.map_eq_some_iff.mp hentry
      have hzero : segment.length = 0 := congrArg Prod.snd hextent
      -- The empty entry behind the data is read, and nothing of it.
      have hcurrent := h.current_end hsum hleft
      have hin : p.offset.toNat - p.offset.toNat ≤ segment.length.toNat := by omega
      refine ⟨[], ?_⟩
      have hwrap := noWrap_of_current hcurrent hsegment (Nat.le_refl _) hin
      rcases @pslrBufferRead_cases memory p (calls n) _ _ _ hcurrent hsegment (Nat.le_refl _) hin
        with ⟨ret, _, hread⟩ | ⟨size, hsize, hread⟩
      · exact ⟨ret, .last hwrap hread, nil_prefix, fun _ => rfl⟩
      · rw [memoryAt, hzero] at hread
        exact ⟨pslrOk, .last hwrap (by simpa using hread), nil_prefix, fun _ => rfl⟩
    · obtain ⟨hwrap, hread⟩ := @h.read_data memory p (calls n) _ _ hsum (by omega) (hcalls n)
      rcases hread with ⟨ret, hret, hread⟩ | ⟨size, p', hsize, hle, hread, hopened, hoffset⟩
      · exact ⟨[], ret, .last hwrap hread, nil_prefix, fun h => absurd h hret⟩
      · obtain ⟨data, ret, hrest, hprefix, hall⟩ := ih (left - size) (by omega) hopened
          (n := n + 1) (by omega)
        rw [hoffset, ← List.drop_drop] at hprefix hall
        refine ⟨_, ret, .more hwrap hread ?_ hrest, ?_, ?_⟩
        · rw [← List.length_pos_iff, length_take, length_drop, length_contents]
          omega
        · obtain ⟨after, hafter⟩ := hprefix
          exact ⟨after, by rw [append_assoc, hafter, List.take_append_drop]⟩
        · intro hret
          rw [hall hret, List.take_append_drop]

/-- Reads that do not bring more than the data end with one behind what they have brought. -/
theorem Opened.reading_last {calls : Nat → ReadCall} (hcalls : ∀ n, 0 < (calls n).size)
    (hsum : totalLength extents < 2 ^ 32) {n : Nat} {data : List UInt8} {ret : Int}
    (h : Opened p extents tail) (hdata : p.offset.toNat + data.length ≤ totalLength extents)
    (hrun : Reading memory calls n p data ret) :
    ∃ m p₁ p₂, Opened p₁ extents tail ∧ p₁.offset.toNat = p.offset.toNat + data.length ∧
      pslrBufferRead memory (calls m) p₁ = some (ret, [], p₂) := by
  induction hrun with
  | last _ hread => exact ⟨_, _, _, h, rfl, hread⟩
  | @more n p p' _ _ bytes data _ hmore hbytes _ ih =>
    have hpos := List.length_pos_iff.mpr hbytes
    rw [length_append] at hdata ⊢
    obtain ⟨_, hread⟩ := @h.read_data memory p (calls n) _ _ hsum (by omega) (hcalls n)
    rcases hread with ⟨_, _, hread⟩ | ⟨size, _, _, _, hread, hopened, hoffset⟩
    · cases hmore.symm.trans hread
      exact absurd rfl hbytes
    · cases hmore.symm.trans hread
      have hlength : (((contents memory extents).drop p.offset.toNat).take size).length = size := by
        rw [length_take, length_drop, length_contents]
        omega
      rw [hlength] at hdata ⊢
      rw [← Nat.add_assoc, ← hoffset]
      exact ih hopened (by omega)

/-- Where a read at the end of the data brings nothing, the entry behind them is empty. -/
theorem Opened.tail_empty (h : Opened p extents tail) (hsum : totalLength extents < 2 ^ 32)
    (hoffset : p.offset.toNat = totalLength extents) (hcall : 0 < call.size)
    (hanswered : Answered call.answer) {ret : Int} {p' : PslrHandle}
    (hrun : pslrBufferRead memory call p = some (ret, [], p')) :
    ∃ addr, tail.head? = some (addr, 0) := by
  have hcurrent := h.current_end hsum hoffset
  rw [← h.segment_end]
  cases hsegment : p.segments[extents.length]? with
  | none =>
    rw [pslrBufferRead, hcurrent] at hrun
    change (p.segments[extents.length]?.bind _) = _ at hrun
    rw [hsegment] at hrun
    cases hrun
  | some segment =>
    rcases @pslrBufferRead_cases memory p call _ _ _ hcurrent hsegment (Nat.le_refl _) (by omega)
      with ⟨_, hfail, hread⟩ | ⟨size, hsize, hread⟩
    · exact absurd (pslrBufferRead_answered hanswered hread) hfail
    · have hbytes := congrArg (fun r => r.map (·.2.1.length)) (hrun.symm.trans hread)
      have hpos : 0 < call.size.toNat := lt_iff_toNat_lt.mp hcall
      have hblock : blockSize.toNat = 65536 := rfl
      rw [readSize] at hsize
      simp only [Option.map_some, length_nil, length_take, length_drop, length_memoryAt,
        Option.some.injEq] at hbytes
      have hzero : segment.length = 0 := toNat_inj.mp (by rw [toNat_zero]; omega)
      exact ⟨segment.addr, by rw [Option.map_some, hzero]⟩

theorem sumLengths_extents {front : List (UInt32 × UInt32)} {len : UInt32}
    (hentries : stored p = front ++ (extents ++ tail))
    (hsum : len.toNat + totalLength extents < 2 ^ 32) :
    ∃ size, sumLengths p extents.length front.length len = some size ∧
      size.toNat = len.toNat + totalLength extents := by
  induction extents generalizing front len with
  | nil => exact ⟨len, rfl, rfl⟩
  | cons extent extents ih =>
    obtain ⟨segment, hsegment, rfl⟩ := exists_segment hentries
    rw [totalLength_cons] at hsum ⊢
    have hadd := @toNat_add_of_lt len segment.length (by omega)
    obtain ⟨size, hsize, hlength⟩ := @ih (front ++ [(segment.addr, segment.length)])
      (len + segment.length) (by rw [hentries, append_assoc]; rfl) (by omega)
    rw [length_append, length_singleton] at hsize
    refine ⟨size, ?_, by omega⟩
    rw [List.length_cons, sumLengths, hsegment]
    exact hsize

/-! ### Main results -/

theorem sound_of_fits (h : PslrFits p infos) : PslrSound p infos := by
  intro answers bufno
  have hopen := @pslrBufferOpen_ends infos answers p bufno h.1
  cases hrun : pslrBufferOpen infos answers bufno p with
  | none => exact absurd hrun hopen.ne_none
  | some r =>
    obtain ⟨result, p'⟩ := r
    refine ⟨result, p', rfl, ?_⟩
    rintro rfl memory calls hcalls
    obtain ⟨hopened, hoffset⟩ := hopen.of_ok hrun
    have hlength := congrArg List.length hopened.entries
    rw [length_stored, length_append] at hlength
    obtain ⟨hsum, addr, hentry⟩ := h.2 (by omega)
    have hstart : p'.offset.toNat = 0 := by rw [hoffset]; rfl
    have htail := (List.head?_drop ..).trans hentry
    obtain ⟨data, ret, hread, hprefix, hall⟩ := @Opened.reading memory _ _ _ _ hcalls hsum addr
      htail 0 _ hopened (by rw [hstart, Nat.zero_add])
    rw [hstart, drop_zero] at hprefix hall
    refine ⟨data, ret, hread, hprefix, fun hret => ⟨hall hret, ?_⟩⟩
    obtain ⟨size, hsize, htotal⟩ := @sumLengths_extents p' _ _ [] 0 hopened.entries
      (by simpa using hsum)
    rw [← hopened.count] at hsize
    refine ⟨size, hsize, ?_⟩
    rw [hall hret, length_contents, htotal, toNat_zero, Nat.zero_add]

theorem Reading.answered {calls : Nat → ReadCall} (h : ∀ n, Answered (calls n).answer) {n : Nat}
    {data : List UInt8} {ret : Int} (hrun : Reading memory calls n p data ret) : ret = pslrOk := by
  induction hrun with
  | last _ hread => exact pslrBufferRead_answered (h _) hread
  | more _ _ _ _ ih => exact ih

/-- Every request of an open is answered with `PSLR_OK`. -/
def allOk : OpenAnswers :=
  ⟨pslrOk, 1, fun _ => pslrOk, fun _ => (pslrOk, ⟨2, 0, 0⟩), fun _ => pslrOk, fun _ => pslrOk,
    fun _ => pslrOk⟩

theorem allOk_answered : allOk.Answered := fun _ => ⟨rfl, rfl⟩

theorem fits_of_sound (h : PslrSound p infos) : PslrFits p infos := by
  obtain ⟨result, p', hrun, hreads⟩ := h allOk 0
  have hoffset : ∀ before info after, asked infos 9 0 = before ++ info :: after → info.b = 4 →
      (dataSegments before).length ≠ maxSegments := by
    intro before info after hasked hinfo hfull
    have hstuck := @enterInfos_stuck infos _ p 9 0 [] (stored p) allOk_answered rfl before after
      info hasked hinfo hfull
    rw [pslrBufferOpen_answered rfl rfl rfl] at hrun
    exact absurd ((Comp.bind_run_none hstuck).symm.trans hrun) (by simp)
  refine ⟨hoffset, fun hroom => ?_⟩
  obtain ⟨_, p₁, hrun₁, hopened, hstart⟩ := (@pslrBufferOpen_ends infos allOk p 0 hoffset).exists_ok
    fun _ _ hfull => absurd (hfull rfl rfl rfl allOk_answered) (Nat.not_lt_of_le hroom)
  rw [hrun] at hrun₁
  cases hrun₁
  -- Reads of one byte that the camera answers, so that only the infos decide how they end.
  obtain ⟨data, ret, hread, _, hall⟩ := hreads rfl (fun _ => 0)
    (fun _ => ⟨1, fun _ => ⟨pslrOk, true⟩⟩) fun _ => by decide
  obtain ⟨hdata, size, _, hsize⟩ := hall (hread.answered fun _ _ => ⟨rfl, rfl⟩)
  have hlength := @length_contents (fun _ => 0) (dataSegments (asked infos 9 0))
  rw [← hdata] at hlength
  have hsum : totalLength (dataSegments (asked infos 9 0)) < 2 ^ 32 := by
    rw [← hlength, hsize]
    exact size.toNat_lt
  refine ⟨hsum, ?_⟩
  have hzero : p'.offset.toNat = 0 := by rw [hstart]; rfl
  obtain ⟨_, p₂, _, hopened₂, hend, hlast⟩ := hopened.reading_last (fun _ => by decide) hsum
    (by omega) hread
  rw [hzero, hlength, Nat.zero_add] at hend
  rw [← List.head?_drop]
  exact hopened₂.tail_empty hsum hend (by decide) (fun _ => ⟨rfl, rfl⟩) hlast

/-- The reads bring what is in the camera exactly for the infos that fit into the table. -/
theorem pslrSound_iff (p : PslrHandle) (infos : Nat → SegmentInfo) :
    PslrSound p infos ↔ PslrFits p infos := ⟨fits_of_sound, sound_of_fits⟩

/-- With four data segments the read at the end of the data uses a fifth entry. -/
theorem pslr_full_table :
    ¬ ∀ (p : PslrHandle) infos, PslrSound (pslrBufferClose p) infos := by
  intro h
  have hfits := fits_of_sound (h ⟨Vector.replicate maxSegments ⟨0, 0, 0⟩, 0, 0⟩
    fun i => if i < 4 then ⟨3, 0, 1⟩ else ⟨2, 0, 0⟩)
  obtain ⟨_, addr, hentry⟩ := hfits.2 (by decide)
  have hnone : (stored (pslrBufferClose ⟨Vector.replicate maxSegments ⟨0, 0, 0⟩, 0, 0⟩))[4]? =
      none := by decide
  exact absurd (hnone.symm.trans hentry) (by simp)

end GPhoto2.Pentax
