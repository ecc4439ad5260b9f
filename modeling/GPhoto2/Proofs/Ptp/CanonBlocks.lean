import GPhoto2.Proofs.Ptp.CanonIsolation

/-!
# `GPhoto2.Proofs.Ptp.CanonBlocks`: event blocks record by record

A block is made of records and may have an end marker behind them. `unpackAll` unpacks its
records one after another, each as if it were alone, and `Isolated` says that
`ptp_unpack_CANON_changes` does the same. `isolated_iff`: it does so if and only if each record
of `CustomFuncEx` repeats the first one of the block. `canonBlocks_iff` says when two blocks one
after the other have the effect of both in one.
-/

set_option autoImplicit false

namespace GPhoto2

open Lib
open List (append_assoc append_nil length_append mem_append_right mem_cons_self nil_append)
open Option (bind_eq_bind bind_eq_some_iff bind_some isSome_iff_exists isSome_of_eq_some)

/-! ### Blocks -/

/-- The records one after another, each as if it were alone: the entries, and the store. -/
def unpackAll (params : PTPParams) :
    List (List UInt8) → CanonParams → Option (List PTPCanonChangesEntry × CanonParams)
  | [], p => some ([], p)
  | record :: records, p =>
    (unpackAt params record 0 p).bind fun done =>
      (unpackAll params records done.2).map fun rest => (done.1 :: rest.1, rest.2)

/-- The bytes of a block. -/
def blockBytes (records : List (List UInt8)) (tail : List UInt8) : List UInt8 :=
  records.flatten ++ tail

/-- The records say how long they are, and their own bytes suffice for them. Behind them there
is nothing, or the end marker. -/
structure WellFormedBlock (params : PTPParams) (records : List (List UInt8)) (tail : List UInt8)
    (p : CanonParams) : Prop where
  sizes : ∀ record ∈ records, SaysLength params record
  notMarker : ∀ record ∈ records, ¬IsEndMarker params record 0
  ending : tail = [] ∨ IsEndMarker params tail 0
  short : (blockBytes records tail).length < 2 ^ 31
  unpacked : (unpackAll params records p).isSome

/-- The entries that a caller sees. -/
def CanonChanges.seen (c : CanonChanges) : List PTPCanonChangesEntry :=
  (c.ce.map (·.2)).take c.entries

/-- Each record is unpacked in the block as it is alone: its entry and its update of the store
depend on its own bytes and on the store before it. -/
def StepsIsolated (params : PTPParams) (records : List (List UInt8)) (tail : List UInt8)
    (p : CanonParams) : Prop :=
  ∀ before record after, records = before ++ record :: after →
    ∀ entries q, unpackAll params before p = some (entries, q) →
      unpackAt params (blockBytes records tail) before.flatten.length q =
        unpackAt params record 0 q

/-- What the block gives is what its records give alone, one after another. -/
def Isolated (params : PTPParams) (records : List (List UInt8)) (tail : List UInt8)
    (p : CanonParams) : Prop :=
  StepsIsolated params records tail p ∧
  ∃ entries q c, unpackAll params records p = some (entries, q) ∧
    ptpUnpackCANONChanges params (blockBytes records tail) p = some c ∧
    c.entries = records.length ∧ c.seen = entries ∧ c.params = q

/-- Each record of `CustomFuncEx` repeats the first record of the block. -/
def CustomFuncRepeats (params : PTPParams) (records : List (List UInt8)) : Prop :=
  ∀ first ∈ records.head?, ∀ record ∈ records, IsCustomFuncEx params record →
    RepeatsFirst first record

section
variable {params : PTPParams} {records : List (List UInt8)} {tail : List UInt8} {p : CanonParams}

theorem unpackAll_cons_eq_some {record : List UInt8} {entries : List PTPCanonChangesEntry}
    {q : CanonParams} :
    unpackAll params (record :: records) p = some (entries, q) ↔
      ∃ entry p' rest, unpackAt params record 0 p = some (entry, p') ∧
        unpackAll params records p' = some (rest, q) ∧ entries = entry :: rest := by
  rw [unpackAll]
  constructor
  · intro h
    obtain ⟨⟨entry, p'⟩, hentry, h⟩ := bind_eq_some_iff.mp h
    obtain ⟨⟨rest, q'⟩, hrest, h⟩ := Option.map_eq_some_iff.mp h
    cases h
    exact ⟨entry, p', rest, hentry, hrest, rfl⟩
  · rintro ⟨entry, p', rest, hentry, hrest, rfl⟩
    rw [hentry, bind_some, hrest]
    rfl

theorem unpackAll_append {records' : List (List UInt8)} {entries : List PTPCanonChangesEntry}
    {q : CanonParams} :
    unpackAll params (records ++ records') p = some (entries, q) ↔
      ∃ first p' rest, unpackAll params records p = some (first, p') ∧
        unpackAll params records' p' = some (rest, q) ∧ entries = first ++ rest := by
  induction records generalizing p entries with
  | nil =>
    constructor
    · intro h
      exact ⟨[], p, entries, rfl, h, rfl⟩
    · rintro ⟨first, p', rest, hfirst, hrest, rfl⟩
      cases hfirst
      exact hrest
  | cons record records ih =>
    rw [List.cons_append, unpackAll_cons_eq_some]
    constructor
    · rintro ⟨entry, p', rest, hentry, hrest, rfl⟩
      obtain ⟨first, p'', rest', hfirst, hrest', rfl⟩ := ih.mp hrest
      exact ⟨entry :: first, p'', rest', unpackAll_cons_eq_some.mpr
        ⟨entry, p', first, hentry, hfirst, rfl⟩, hrest', rfl⟩
    · rintro ⟨first, p'', rest, hfirst, hrest, rfl⟩
      obtain ⟨entry, p', first', hentry, hfirst', rfl⟩ := unpackAll_cons_eq_some.mp hfirst
      exact ⟨entry, p', first' ++ rest, hentry, ih.mpr ⟨first', p'', rest, hfirst', hrest, rfl⟩,
        rfl⟩

/-! ### Where the records lie -/

theorem liesAt_block (before : List (List UInt8)) (record : List UInt8)
    (after : List (List UInt8)) (tail : List UInt8) :
    LiesAt record (blockBytes (before ++ record :: after) tail) before.flatten.length := by
  have hbytes : blockBytes (before ++ record :: after) tail =
      before.flatten ++ record ++ (after.flatten ++ tail) := by
    unfold blockBytes
    simp only [List.flatten_append, List.flatten_cons, append_assoc]
  unfold LiesAt
  rw [hbytes]
  exact slice_append _ _ _

theorem liesAt_tail (records : List (List UInt8)) (tail : List UInt8) :
    LiesAt tail (blockBytes records tail) records.flatten.length := by
  have hslice := slice_append records.flatten tail []
  rw [append_nil] at hslice
  exact hslice

theorem LiesAt.le {record block : List UInt8} {off : Nat} (h : LiesAt record block off) :
    off + record.length ≤ block.length := (slice_eq_some.mp h).1

theorem WellFormedBlock.datasize (h : WellFormedBlock params records tail p) :
    datasize (blockBytes records tail) = (blockBytes records tail).length := if_pos h.short

theorem WellFormedBlock.visits (h : WellFormedBlock params records tail p)
    {before after : List (List UInt8)} (hsplit : records = before ++ after) :
    ∃ visited, Visits params (blockBytes records tail) before.flatten.length after.length
      visited := by
  induction after generalizing before with
  | nil =>
    rw [append_nil] at hsplit
    subst hsplit
    have hlies := liesAt_tail records tail
    rcases h.ending with rfl | hmarker
    · refine ⟨[], .atEnd (Nat.le_of_eq ?_)⟩
      rw [h.datasize, blockBytes, append_nil]
    · have hlen : 0 + 4 ≤ tail.length := dtoh32ap_isSome.mp (isSome_of_eq_some hmarker.1)
      have hle := hlies.le
      refine ⟨_, .endMarker (by rw [h.datasize]; omega) ⟨?_, ?_⟩⟩
      · exact dtoh32ap_kept hlies 0 _ hmarker.1
      · exact dtoh32ap_kept hlies 4 _ hmarker.2
  | cons record after ih =>
    subst hsplit
    have hmem : record ∈ before ++ record :: after :=
      mem_append_right _ mem_cons_self
    have hlies := liesAt_block before record after tail
    have hsaid := h.sizes record hmem
    have hmin := hsaid.min
    have hle := hlies.le
    obtain ⟨type, htype⟩ := isSome_iff_exists.mp
      (dtoh32ap_isSome.mpr (by omega) : (dtoh32ap params record 4).isSome)
    obtain ⟨visited, hrest⟩ := @ih (before ++ [record]) (by rw [append_assoc]; rfl)
    have hnext : (before ++ [record]).flatten.length =
        before.flatten.length + (UInt32.ofNat record.length).toNat := by
      rw [hsaid.toNat, List.flatten_append, length_append, List.flatten_singleton]
    rw [hnext] at hrest
    refine ⟨_, .record (by rw [h.datasize]; omega) (dtoh32ap_kept hlies 0 _ hsaid.size)
      (dtoh32ap_kept hlies 4 _ htype) ?_ (by rw [hsaid.toNat]; omega) hrest⟩
    rintro ⟨hsize, rfl⟩
    refine h.notMarker record hmem ⟨?_, htype⟩
    rw [← hsize]
    exact hsaid.size

/-! ### The second loop -/

theorem WellFormedBlock.changesLoop (h : WellFormedBlock params records tail p)
    (hsteps : StepsIsolated params records tail p) {before after : List (List UInt8)}
    (hsplit : records = before ++ after) {done entries : List PTPCanonChangesEntry}
    {q q' : CanonParams} (hbefore : unpackAll params before p = some (done, q))
    (hafter : unpackAll params after q = some (entries, q')) {fuel i allocated : Nat}
    (hfuel : (blockBytes records tail).length - before.flatten.length < fuel)
    (hroom : i + after.length < allocated) :
    ∃ ce, changesLoop params (blockBytes records tail) allocated fuel before.flatten.length i q =
      some (ce, q') ∧ (ce.map (·.2)).take after.length = entries := by
  induction after generalizing before done entries q fuel i with
  | nil =>
    obtain ⟨fuel, rfl⟩ := Nat.exists_eq_succ_of_ne_zero (Nat.ne_zero_of_lt hfuel)
    rw [append_nil] at hsplit
    subst hsplit
    cases hafter
    rcases h.ending with rfl | hmarker
    · refine ⟨[], ?_, rfl⟩
      rw [GPhoto2.changesLoop, if_neg]
      rw [h.datasize, blockBytes, append_nil]
      exact Nat.lt_irrefl _
    · have hlies := liesAt_tail records tail
      have hlen : 0 + 4 ≤ tail.length := dtoh32ap_isSome.mp (isSome_of_eq_some hmarker.1)
      have hle := hlies.le
      have hsize : dtoh32ap params (blockBytes records tail) records.flatten.length = some 8 :=
        dtoh32ap_kept hlies 0 _ hmarker.1
      have htype : dtoh32ap params (blockBytes records tail) (records.flatten.length + 4) =
        some 0 := dtoh32ap_kept hlies 4 _ hmarker.2
      rw [List.length_nil, Nat.add_zero] at hroom
      rw [changesLoop_record (by rw [h.datasize]; omega) hsize htype hroom]
      exact ⟨_, rfl, rfl⟩
  | cons record after ih =>
    obtain ⟨fuel, rfl⟩ := Nat.exists_eq_succ_of_ne_zero (Nat.ne_zero_of_lt hfuel)
    obtain ⟨entry, q₁, rest, hentry, hrest, rfl⟩ := unpackAll_cons_eq_some.mp hafter
    have hmem : record ∈ records := by
      rw [hsplit]
      exact mem_append_right _ mem_cons_self
    have hlies : LiesAt record (blockBytes records tail) before.flatten.length := by
      rw [hsplit]
      exact liesAt_block before record after tail
    have hsaid := h.sizes record hmem
    have hmin := hsaid.min
    have hle := hlies.le
    have hsize : dtoh32ap params (blockBytes records tail) before.flatten.length =
        some (UInt32.ofNat record.length) := dtoh32ap_kept hlies 0 _ hsaid.size
    -- the record gives here what it gives alone
    have hstep := (hsteps before record after hsplit done q hbefore).trans hentry
    unfold unpackAt at hstep
    obtain ⟨size, hsize', hstep⟩ := bind_eq_some_iff.mp hstep
    obtain ⟨type, htype, hstep⟩ := bind_eq_some_iff.mp hstep
    cases hsize'.symm.trans hsize
    have hmarker : ¬(UInt32.ofNat record.length = 8 ∧ type = 0) := by
      rintro ⟨height, rfl⟩
      have hlong : 0 + 4 + 4 ≤ record.length := by omega
      obtain ⟨type, htype'⟩ := isSome_iff_exists.mp
        (dtoh32ap_isSome.mpr hlong : (dtoh32ap params record (0 + 4)).isSome)
      have hsame := (dtoh32ap_kept hlies (0 + 4) _ htype').symm.trans htype
      refine h.notMarker record hmem ⟨?_, ?_⟩
      · rw [← height]
        exact hsaid.size
      · rw [← Option.some.inj hsame]
        exact htype'
    have hnext : (before ++ [record]).flatten.length =
        before.flatten.length + (UInt32.ofNat record.length).toNat := by
      rw [hsaid.toNat, List.flatten_append, length_append, List.flatten_singleton]
    have hsplit' : records = (before ++ [record]) ++ after := by
      rw [hsplit, append_assoc]
      rfl
    have hbefore' : unpackAll params (before ++ [record]) p = some (done ++ [entry], q₁) :=
      unpackAll_append.mpr ⟨done, q, [entry], hbefore,
        unpackAll_cons_eq_some.mpr ⟨entry, q₁, [], hentry, rfl, rfl⟩, rfl⟩
    have hpos : 0 < (UInt32.ofNat record.length).toNat := by
      rw [hsaid.toNat]
      omega
    rw [List.length_cons] at hroom
    obtain ⟨ce, hce, htake⟩ := @ih (before ++ [record]) hsplit' (done ++ [entry]) rest q₁
      hbefore' hrest fuel (i + 1) (by omega) (by omega)
    rw [hnext] at hce
    refine ⟨(before.flatten.length, entry) :: ce, ?_, ?_⟩
    · rw [changesLoop_record (by rw [h.datasize]; omega) hsize htype (by omega), hstep]
      simp only [bind_eq_bind, bind_some, if_neg hmarker]
      rw [hce]
      rfl
    · rw [List.map_cons, List.length_cons, List.take_succ_cons, htake]

/-! ### One block -/

variable (h : WellFormedBlock params records tail p)
include h

theorem WellFormedBlock.unpackAll_before
    {before after : List (List UInt8)} (hsplit : records = before ++ after) :
    ∃ entries q, unpackAll params before p = some (entries, q) ∧
      (unpackAll params after q).isSome := by
  obtain ⟨⟨entries, q⟩, hall⟩ := isSome_iff_exists.mp h.unpacked
  rw [hsplit] at hall
  obtain ⟨first, p', rest, hfirst, hrest, -⟩ := unpackAll_append.mp hall
  exact ⟨first, p', hfirst, isSome_of_eq_some hrest⟩

theorem stepsIsolated_iff :
    StepsIsolated params records tail p ↔ CustomFuncRepeats params records := by
  cases records with
  | nil =>
    refine iff_of_true ?_ fun first hfirst => by cases hfirst
    intro before record after hsplit
    exact absurd hsplit.symm (by simp)
  | cons first records =>
    have hfirst := h.sizes first mem_cons_self
    have hblock : LiesAt first (blockBytes (first :: records) tail) 0 :=
      liesAt_block [] first records tail
    have hiff {before after : List (List UInt8)} {record : List UInt8}
        (hsplit : first :: records = before ++ record :: after)
        {entries : List PTPCanonChangesEntry} {q : CanonParams}
        (hbefore : unpackAll params before p = some (entries, q)) :
        unpackAt params (blockBytes (first :: records) tail) before.flatten.length q =
            unpackAt params record 0 q ↔
          (IsCustomFuncEx params record → RepeatsFirst first record) := by
      have hmem : record ∈ first :: records := by
        rw [hsplit]
        exact mem_append_right _ mem_cons_self
      have hlies : LiesAt record (blockBytes (first :: records) tail) before.flatten.length := by
        rw [hsplit]
        exact liesAt_block before record after tail
      obtain ⟨entries', q', hbefore', hafter⟩ := h.unpackAll_before hsplit
      cases hbefore.symm.trans hbefore'
      obtain ⟨⟨rest, p'⟩, hrest⟩ := isSome_iff_exists.mp hafter
      obtain ⟨entry, q₁, rest', hentry, -⟩ := unpackAll_cons_eq_some.mp hrest
      exact unpackAt_iff hfirst hblock (h.sizes record hmem) hlies
        (isSome_of_eq_some hentry)
    constructor
    · intro hsteps first' hhead record hmem
      obtain rfl : first = first' := Option.some.inj hhead
      obtain ⟨before, after, hsplit⟩ := List.append_of_mem hmem
      obtain ⟨entries, q, hbefore, -⟩ := h.unpackAll_before hsplit
      exact (hiff hsplit hbefore).mp (hsteps before record after hsplit entries q hbefore)
    · intro hrepeats before record after hsplit entries q hbefore
      refine (hiff hsplit hbefore).mpr (hrepeats first rfl record ?_)
      rw [hsplit]
      exact mem_append_right _ mem_cons_self

/-- A block is unpacked record by record if and only if each record of `CustomFuncEx` repeats
the first one. -/
theorem isolated_iff :
    Isolated params records tail p ↔ CustomFuncRepeats params records := by
  rw [← stepsIsolated_iff h]
  refine and_iff_left_of_imp fun hsteps => ?_
  obtain ⟨⟨entries, q⟩, hall⟩ := isSome_iff_exists.mp h.unpacked
  by_cases hempty : blockBytes records tail = []
  · have hnil : records = [] := by
      cases records with
      | nil => rfl
      | cons record records =>
        have hmin := (h.sizes record mem_cons_self).min
        have hle := (liesAt_block [] record records tail).le
        rw [nil_append, hempty, List.length_nil] at hle
        omega
    subst hnil
    cases hall
    refine ⟨[], p, ⟨0, [], [], p⟩, rfl, ?_, rfl, rfl, rfl⟩
    rw [ptpUnpackCANONChanges, if_pos hempty]
  · obtain ⟨visited, hvisits⟩ := h.visits (nil_append records).symm
    have hlen : ([] : List (List UInt8)).flatten.length = 0 := rfl
    rw [hlen] at hvisits
    have hcount : countLoop params (blockBytes records tail)
        (GPhoto2.datasize (blockBytes records tail) + 1) 0 = some (records.length, visited) :=
      hvisits.countLoop (by omega)
    obtain ⟨ce, hce, htake⟩ := @WellFormedBlock.changesLoop _ _ _ _ h hsteps [] records
      (nil_append records).symm [] entries p q rfl hall
      (GPhoto2.datasize (blockBytes records tail) + 1) 0 (records.length + 1)
      (by rw [h.datasize]; omega) (by omega)
    rw [hlen] at hce
    refine ⟨entries, q, ⟨records.length, visited, ce, q⟩, hall, ?_, rfl, htake, rfl⟩
    rw [ptpUnpackCANONChanges, if_neg hempty, hcount]
    simp only [bind_eq_bind, bind_some, hce]

end

/-- A record of `CustomFuncEx` with a value of two words. -/
def customFuncRecord : List UInt8 :=
  [20, 0, 0, 0, 0x89, 0xc1, 0, 0, 0xa0, 0xd1, 0, 0, 8, 0, 0, 0, 7, 0, 0, 0]

/-- Behind a camera status record its text is printed from the latter. -/
theorem customFunc_not_isolated :
    ¬∀ (params : PTPParams) (records : List (List UInt8)) (tail : List UInt8) (p : CanonParams),
      WellFormedBlock params records tail p → Isolated params records tail p := by
  intro h
  have hwell : WellFormedBlock ⟨.little, none, false⟩
      [[12, 0, 0, 0, 0x8b, 0xc1, 0, 0, 1, 0, 0, 0], customFuncRecord] [] ⟨[], 0⟩ := by
    refine ⟨?_, by decide, Or.inl rfl, by decide, by decide⟩
    intro record hmem
    rcases List.mem_cons.mp hmem with rfl | hmem
    · exact ⟨by decide, by decide, by decide⟩
    · obtain rfl := List.mem_singleton.mp hmem
      exact ⟨by decide, by decide, by decide⟩
  have hrepeats := (isolated_iff hwell).mp (h _ _ _ _ hwell) _ rfl _
    (List.mem_cons_of_mem _ mem_cons_self) (by decide)
  exact absurd hrepeats.1 (by decide)

/-! ### Two blocks -/

/-- Two blocks one after the other give what one block with the records of both gives. -/
def BlocksCompose (params : PTPParams) (records₁ : List (List UInt8)) (tail₁ : List UInt8)
    (records₂ : List (List UInt8)) (tail₂ : List UInt8) (p : CanonParams) : Prop :=
  ∃ c₁ c₂ c, ptpUnpackCANONChanges params (blockBytes records₁ tail₁) p = some c₁ ∧
    ptpUnpackCANONChanges params (blockBytes records₂ tail₂) c₁.params = some c₂ ∧
    ptpUnpackCANONChanges params (blockBytes (records₁ ++ records₂) tail₂) p = some c ∧
    c.entries = c₁.entries + c₂.entries ∧ c.seen = c₁.seen ++ c₂.seen ∧ c.params = c₂.params

/-- Two blocks and the one with the records of both are unpacked record by record, and have the
same effect, if and only if each record of `CustomFuncEx` repeats the first record of its
block, in the second one and in the one of both. -/
theorem canonBlocks_iff {params : PTPParams} {records₁ records₂ : List (List UInt8)}
    {tail₁ tail₂ : List UInt8} {p q : CanonParams} {entries : List PTPCanonChangesEntry}
    (h₁ : WellFormedBlock params records₁ tail₁ p)
    (hfirst : unpackAll params records₁ p = some (entries, q))
    (h₂ : WellFormedBlock params records₂ tail₂ q)
    (hshort : (blockBytes (records₁ ++ records₂) tail₂).length < 2 ^ 31) :
    (Isolated params records₁ tail₁ p ∧ Isolated params records₂ tail₂ q ∧
      Isolated params (records₁ ++ records₂) tail₂ p ∧
      BlocksCompose params records₁ tail₁ records₂ tail₂ p) ↔
    CustomFuncRepeats params records₂ ∧ CustomFuncRepeats params (records₁ ++ records₂) := by
  have hboth : WellFormedBlock params (records₁ ++ records₂) tail₂ p := by
    refine ⟨?_, ?_, h₂.ending, hshort, ?_⟩
    · intro record hmem
      exact (List.mem_append.mp hmem).elim (h₁.sizes record) (h₂.sizes record)
    · intro record hmem
      exact (List.mem_append.mp hmem).elim (h₁.notMarker record) (h₂.notMarker record)
    · obtain ⟨⟨rest, q'⟩, hrest⟩ := isSome_iff_exists.mp h₂.unpacked
      exact isSome_of_eq_some
        (unpackAll_append.mpr ⟨entries, q, rest, hfirst, hrest, rfl⟩)
  rw [isolated_iff h₁, isolated_iff h₂, isolated_iff hboth]
  constructor
  · rintro ⟨-, hsecond, hall, -⟩
    exact ⟨hsecond, hall⟩
  · rintro ⟨hsecond, hall⟩
    have hone : CustomFuncRepeats params records₁ := by
      intro first hhead record hmem
      refine hall first ?_ record (List.mem_append_left _ hmem)
      cases records₁ with
      | nil => cases hhead
      | cons r rs => exact hhead
    refine ⟨hone, hsecond, hall, ?_⟩
    obtain ⟨-, entries₁, q₁, c₁, hunpack₁, hc₁, hentries₁, hseen₁, hparams₁⟩ :=
      (isolated_iff h₁).mpr hone
    cases hfirst.symm.trans hunpack₁
    obtain ⟨-, entries₂, q₂, c₂, hunpack₂, hc₂, hentries₂, hseen₂, hparams₂⟩ :=
      (isolated_iff h₂).mpr hsecond
    obtain ⟨-, entries₃, q₃, c, hunpack, hc, hentries, hseen, hparams⟩ :=
      (isolated_iff hboth).mpr hall
    cases hunpack.symm.trans
      (unpackAll_append.mpr ⟨entries, q, entries₂, hfirst, hunpack₂, rfl⟩)
    rw [← hparams₁] at hc₂
    refine ⟨c₁, c₂, c, hc₁, hc₂, hc, ?_, ?_, hparams.trans hparams₂.symm⟩
    · rw [hentries, hentries₁, hentries₂, length_append]
    · rw [hseen, hseen₁, hseen₂]

/-- A block of one record of `CustomFuncEx`, and one that repeats it. -/
theorem canonBlocks_repeated :
    ∃ (params : PTPParams) (p q : CanonParams), Isolated params [customFuncRecord] [] p ∧
      Isolated params [customFuncRecord] [] q ∧
      Isolated params [customFuncRecord, customFuncRecord] [] p ∧
      BlocksCompose params [customFuncRecord] [] [customFuncRecord] [] p := by
  have hsizes : ∀ record ∈ [customFuncRecord], SaysLength ⟨.little, none, false⟩ record := by
    intro record hmem
    rw [List.mem_singleton.mp hmem]
    exact ⟨by decide, by decide, by decide⟩
  have hrepeats (records : List (List UInt8)) (hall : ∀ record ∈ records,
      record = customFuncRecord) : CustomFuncRepeats ⟨.little, none, false⟩ records := by
    intro first hhead record hmem _
    rw [hall record hmem, hall first (List.mem_of_head? hhead)]
    exact ⟨rfl, rfl⟩
  have hfirst : WellFormedBlock ⟨.little, none, false⟩ [customFuncRecord] [] ⟨[], 0⟩ :=
    ⟨hsizes, by decide, Or.inl rfl, by decide, by decide⟩
  obtain ⟨⟨entries, q⟩, hq⟩ := isSome_iff_exists.mp hfirst.unpacked
  -- the second one is unpacked with the store that the first one leaves
  have hboth : (unpackAll ⟨.little, none, false⟩ [customFuncRecord, customFuncRecord]
      ⟨[], 0⟩).isSome := by decide
  obtain ⟨⟨all, q'⟩, hall⟩ := isSome_iff_exists.mp hboth
  obtain ⟨first, p', rest, hfirst', hrest, -⟩ :=
    (unpackAll_append.mp hall : ∃ first p' rest, unpackAll _ [customFuncRecord] _ = _ ∧
      unpackAll _ [customFuncRecord] p' = _ ∧ _)
  cases hq.symm.trans hfirst'
  have hsecond : WellFormedBlock ⟨.little, none, false⟩ [customFuncRecord] [] q :=
    ⟨hsizes, by decide, Or.inl rfl, by decide, isSome_of_eq_some hrest⟩
  exact ⟨_, _, q, (canonBlocks_iff hfirst hq hsecond (by decide)).mpr
    ⟨hrepeats _ (by decide), hrepeats _ (by decide)⟩⟩

end GPhoto2
