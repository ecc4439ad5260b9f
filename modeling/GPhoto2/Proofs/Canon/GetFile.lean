import GPhoto2.Canon.GetFile

/-!
# `GPhoto2.Proofs.Canon.GetFile`: the chunks of a download tile it

A round of either loop takes a chunk that lies where the chunks before it end (`take_run`), within
the message and the block, or it refuses the message (`take_error`). So a file that
`canon_serial_get_file` returns is tiled by its chunks, with the end mark on the last one
(`getFile_tiled`). `canon_serial_get_thumbnail` has one more way out: where the messages break off
it returns what there is, with success. `tiled_iff` says that this is the only exception.
-/

set_option autoImplicit false

/-! ## A listing is never returned as it was sent

The size that `canon_serial_get_dirents` counts starts with the five leading bytes of the first
packet, which it does not copy, so behind the contents of the first packet five bytes are left out
(`readDirents_hole`). The length that it returns is that of the last packet, with its five leading
bytes. `getDirents_never` draws the conclusion for all listings.
-/

namespace GPhoto2.Canon

open Lib
open List (append_nil flatMap_cons length_append length_cons length_drop length_map length_replicate
  length_take)

/-- The packets of a listing, up to the last one. -/
def listing : List (Option Message) → List Message
  | [] => []
  | none :: _ => []
  | some p :: messages => p :: if p.bytes.getD 4 0 ≠ 0 then [] else listing messages

/-- What the packets of a listing contain. -/
def contents (messages : List (Option Message)) : List UInt8 :=
  (listing messages).flatMap fun p => p.bytes.drop 5

/-- Nothing has been written at this place of a block. -/
def Unwritten (data : Memory) (i : Nat) : Prop := ∀ b, data[i]? ≠ some (some b)

theorem withoutHeader_eq {n : Nat} (hlow : 5 ≤ n) (hhigh : n < 65536) :
    withoutHeader n = n - 5 := by
  rw [withoutHeader]
  omega

theorem withoutHeader_short {n : Nat} (h : n < 5) : 1048576 < withoutHeader n := by
  rw [withoutHeader]
  omega

variable {data : Memory}

theorem length_copyTo {offset : Nat} {bytes : List UInt8}
    (h : offset + bytes.length ≤ data.length) :
    (copyTo data offset bytes).length = data.length := by
  simp only [copyTo, length_append, length_take, length_map, length_drop]
  omega

theorem copyTo_front {offset i : Nat} (bytes : List UInt8) (hi : i < offset)
    (hoffset : offset ≤ data.length) : (copyTo data offset bytes)[i]? = data[i]? := by
  have hlength : (data.take offset).length = offset := by
    rw [length_take]
    omega
  rw [copyTo, List.append_assoc, List.getElem?_append_left (by omega), List.getElem?_take_of_lt hi]

variable {data' : Memory} {totalSize : Nat} {messages messages' : List (Option Message)}

theorem makeRoom_eq_ok {n : Nat}
    (h : makeRoom data totalSize n messages = some (.ok data', messages')) :
    messages' = messages ∧ (data.length ≤ 1048576 → data'.length ≤ 1048576) ∧
      ∀ i, Unwritten data i → Unwritten data' i := by
  rw [makeRoom] at h
  by_cases hroom : (totalSize + withoutHeader n) % 4294967296 > data.length
  · rw [if_pos hroom] at h
    by_cases hlarge : data.length + max 1024 n > 1024 * 1024
    · rw [if_pos hlarge] at h
      cases h
    · rw [if_neg hlarge] at h
      cases h
      refine ⟨rfl, fun _ => ?_, fun i hi b => ?_⟩
      · rw [length_append, length_replicate]
        omega
      · by_cases hold : i < data.length
        · rw [List.getElem?_append_left hold]
          exact hi b
        · rw [List.getElem?_append_right (by omega), List.getElem?_replicate]
          by_cases hnew : i - data.length < max 1024 n
          · rw [if_pos hnew]
            simp
          · rw [if_neg hnew]
            simp
  · rw [if_neg hroom] at h
    cases h
    exact ⟨rfl, id, fun _ => id⟩

variable {length : Nat}

/-- A round of the loop that goes on: the next message has contents, and they are copied behind
`totalSize`, within the block. -/
theorem readDirents_round {fuel : Nat} {p : Message}
    (hmore : ¬ p.bytes.getD 4 0 ≠ 0)
    (hsize : data.length ≤ 1048576)
    (h : readDirents (fuel + 1) data totalSize p messages =
      some (.ok (data', length), messages')) :
    ∃ q rest data₁, messages = some q :: rest ∧ 16 ≤ q.bytes.length ∧
      (∀ i, Unwritten data i → Unwritten data₁ i) ∧ data₁.length ≤ 1048576 ∧
        totalSize + (q.bytes.drop 5).length ≤ data₁.length ∧
          readDirents fuel (copyTo data₁ totalSize (q.bytes.drop 5))
            ((totalSize + (q.bytes.drop 5).length) % 4294967296) q rest =
              some (.ok (data', length), messages') := by
  rw [readDirents, if_neg hmore, Comp.bind_eq_ok] at h
  obtain ⟨q, rest, hnext, h⟩ := h
  by_cases hmin : withoutHeader q.bytes.length < canonMinimumDirentSize
  · rw [if_pos hmin] at h
    cases h
  rw [if_neg hmin, Comp.bind_eq_ok] at h
  obtain ⟨data₁, rest', hroom, h⟩ := h
  obtain ⟨rfl, hsize₁, hholes⟩ := makeRoom_eq_ok hroom
  have hlarge := hsize₁ hsize
  by_cases hleaves : totalSize + withoutHeader q.bytes.length > data₁.length
  · rw [if_pos hleaves] at h
    cases h
  rw [if_neg hleaves] at h
  -- a message too short for its header would not have fitted
  have hheader : 5 ≤ q.bytes.length := by
    by_cases hshort : q.bytes.length < 5
    · have hcount := withoutHeader_short hshort
      omega
    · omega
  have hcount : withoutHeader q.bytes.length = (q.bytes.drop 5).length := by
    rw [withoutHeader_eq hheader q.bytes_length, length_drop]
  rw [hcount] at h hmin hleaves
  rw [length_drop] at hmin
  have hminimum : canonMinimumDirentSize = 11 := rfl
  rcases messages with _ | ⟨_ | q', messages⟩
  · cases hnext
  · cases hnext
  · cases hnext
    exact ⟨_, _, _, rfl, by omega, hholes, hlarge, by omega, h⟩

theorem readDirents_hole {fuel : Nat} {i : Nat} {p : Message}
    (hhole : Unwritten data i) (hi : i < totalSize)
    (hsize : data.length ≤ 1048576)
    (h : readDirents fuel data totalSize p messages = some (.ok (data', length), messages')) :
    Unwritten data' i := by
  induction fuel generalizing data totalSize p messages with
  | zero => cases h
  | succ fuel ih =>
    by_cases hlast : p.bytes.getD 4 0 ≠ 0
    · rw [readDirents, if_pos hlast] at h
      cases h
      exact hhole
    obtain ⟨q, rest, data₁, -, -, hholes, hlarge, hfits, h⟩ := readDirents_round hlast hsize h
    refine ih ?_ (by omega) ?_ h
    · intro b
      rw [copyTo_front _ hi (by omega)]
      exact hholes i hhole b
    · rw [length_copyTo hfits]
      exact hlarge

theorem getDirents_eq_ok (h : getDirents messages = some (.ok (data, length), messages')) :
    ∃ p rest, messages = some p :: rest ∧ 5 ≤ p.bytes.length ∧
      readDirents (messages.length + 1)
        (copyTo (List.replicate (max 1024 (p.bytes.length - 5)) none) 0 (p.bytes.drop 5))
        p.bytes.length p rest = some (.ok (data, length), messages') := by
  rw [getDirents, Comp.get_bind_run, Comp.bind_eq_ok] at h
  obtain ⟨p, rest, hfirst, h⟩ := h
  rcases messages with _ | ⟨_ | q, messages⟩
  · cases hfirst
  · cases hfirst
  · cases hfirst
    by_cases hshort : p.bytes.length < 5
    · rw [if_pos hshort] at h
      cases h
    · rw [if_neg hshort] at h
      exact ⟨p, rest, rfl, by omega, h⟩

/-- A packet that is not the last one has another one behind it, with contents. -/
theorem readDirents_more {fuel : Nat} {p : Message}
    (hmore : ¬ p.bytes.getD 4 0 ≠ 0)
    (h : readDirents fuel data totalSize p messages = some (.ok (data', length), messages'))
    (hsize : data.length ≤ 1048576) : 0 < (contents messages).length := by
  cases fuel with
  | zero => cases h
  | succ fuel =>
    obtain ⟨q, rest, -, rfl, hlong, -⟩ := readDirents_round hmore hsize h
    have hdrop : (q.bytes.drop 5).length = q.bytes.length - 5 := length_drop
    rw [contents, listing, flatMap_cons, length_append]
    omega

/-- **A listing is never returned as it was sent.** Whatever the number of the packets and their
sizes, when the function succeeds either the length is wrong or the data are. -/
theorem getDirents_never (messages messages' : List (Option Message)) (data : Memory)
    (length : Nat) (h : getDirents messages = some (.ok (data, length), messages')) :
    ¬ (length = (contents messages).length ∧
      data.take (contents messages).length = (contents messages).map some) := by
  rintro ⟨hlength, hdata⟩
  obtain ⟨p, rest, rfl, hheader, hrun⟩ := getDirents_eq_ok h
  have hdrop : (p.bytes.drop 5).length = p.bytes.length - 5 := List.length_drop
  have hshort := p.bytes_length
  by_cases hlast : p.bytes.getD 4 0 ≠ 0
  · -- one packet: the length counts its header
    rw [readDirents, if_pos hlast] at hrun
    cases hrun
    rw [contents, listing, if_pos hlast, List.flatMap_cons, List.flatMap_nil, List.append_nil,
      hdrop] at hlength
    omega
  · -- more packets: nothing is written behind the first one
    have hsize : (copyTo (List.replicate (max 1024 (p.bytes.length - 5)) none) 0
        (p.bytes.drop 5)).length ≤ 1048576 := by
      rw [length_copyTo (by rw [hdrop, List.length_replicate]; omega), List.length_replicate]
      omega
    have hhole : Unwritten (copyTo (List.replicate (max 1024 (p.bytes.length - 5)) none) 0
        (p.bytes.drop 5)) (p.bytes.length - 5) := by
      intro b
      rw [copyTo, List.take_zero, List.nil_append, List.getElem?_append_right (by simp),
        List.length_map, hdrop, Nat.sub_self, Nat.zero_add, List.drop_replicate,
        List.getElem?_replicate]
      by_cases hroom : 0 < max 1024 (p.bytes.length - 5) - (p.bytes.length - 5)
      · rw [if_pos hroom]
        simp
      · rw [if_neg hroom]
        simp
    have hunwritten := readDirents_hole hhole (by omega) hsize hrun
    have hmore := readDirents_more hlast hrun hsize
    have hcontents : (contents (some p :: rest)).length =
        p.bytes.length - 5 + (contents rest).length := by
      rw [contents, listing, if_neg hlast, List.flatMap_cons, List.length_append, hdrop]
      rfl
    have hin : p.bytes.length - 5 < (contents (some p :: rest)).length := by omega
    have hat := congrArg (fun l => l[p.bytes.length - 5]?) hdata
    simp only [List.getElem?_take_of_lt hin, List.getElem?_map,
      List.getElem?_eq_getElem hin, Option.map_some] at hat
    exact hunwritten _ hat

theorem length_direntPacket (last : UInt8) :
    ([0, 0, 0, 0, last] ++ List.replicate 11 0x41 : List UInt8).length < 65536 := by
  show 16 < 65536
  decide

/-- A packet of a listing. -/
def direntPacket (last : UInt8) : Message where
  bytes        := [0, 0, 0, 0, last] ++ List.replicate 11 0x41
  bytes_length := length_direntPacket last

theorem getDirents_never_two : ∃ data messages',
    getDirents [some (direntPacket 0), some (direntPacket 1)] = some (.ok (data, 16), messages') ∧
      ¬ (16 = (contents [some (direntPacket 0), some (direntPacket 1)]).length ∧
        data.take (contents [some (direntPacket 0), some (direntPacket 1)]).length =
          (contents [some (direntPacket 0), some (direntPacket 1)]).map some) := by
  have hrun : (getDirents [some (direntPacket 0), some (direntPacket 1)]).map
      (fun outcome => outcome.1.toOption.map Prod.snd) = some (some 16) := by
    decide +kernel
  obtain ⟨outcome, houtcome, heq⟩ := Option.map_eq_some_iff.mp hrun
  obtain ⟨result, messages'⟩ := outcome
  cases result with
  | error e => cases heq
  | ok found =>
    obtain ⟨data, length⟩ := found
    cases heq
    exact ⟨data, messages', houtcome, getDirents_never _ messages' data _ houtcome⟩

/-- Two packets with eleven bytes each: the length is 16 in place of 22, and behind the first eleven
bytes nothing is written. -/
theorem getDirents_gap :
    (getDirents [some (direntPacket 0), some (direntPacket 1)]).map
        (fun outcome => outcome.1.toOption.map fun found => (found.2, found.1.take 22)) =
      some (some (16, List.replicate 11 (some 0x41) ++ List.replicate 5 none ++
        List.replicate 6 (some 0x41))) ∧
      contents [some (direntPacket 0), some (direntPacket 1)] = List.replicate 22 0x41 := by
  decide +kernel

open Lib Comp

/-! ### What a download is to be -/

/-- The chunk of a message lies at `pos`, within the message and within the range. -/
structure InPlace (total pos : Nat) (m : Message) : Prop where
  accepted : ¬ m.refused
  offset   : m.word 8 = pos
  carried  : 20 + m.word 12 ≤ m.bytes.length
  inside   : pos + m.word 12 ≤ total

/-- The chunks fill the range from `pos` on without gap or overlap, and the end mark is on the last
one only. -/
def Tiles (total : Nat) : Nat → List Message → Prop
  | _, [] => False
  | pos, m :: ms => InPlace total pos m ∧
      (pos + m.word 12 = total ∧ m.word 16 = 1 ∧ ms = [] ∨
        pos + m.word 12 ≠ total ∧ m.word 16 = 0 ∧ Tiles total (pos + m.word 12) ms)

/-- The chunks begin such a tiling and do not end it. -/
def BeginsTiling (total : Nat) : Nat → List Message → Prop
  | _, [] => True
  | pos, m :: ms => InPlace total pos m ∧ pos + m.word 12 ≠ total ∧ m.word 16 = 0 ∧
      BeginsTiling total (pos + m.word 12) ms

/-- A file is returned only if the messages taken for it tile it, and with what they carry. No copy
leaves a message or the block. -/
def TiledOutcome (messages : List (Option Message)) :
    Option (Except Int Memory × List (Option Message)) → Prop :=
  Ends (fun file rest => ∃ m ms, messages = (m :: ms).map some ++ rest ∧
    Tiles (m.word 4) 0 (m :: ms) ∧ file = ((m :: ms).flatMap Message.chunk).map some)
    fun _ _ => True

/-- The messages of a thumbnail break off: what comes up to there begins a tiling. -/
def BreaksOff (messages : List (Option Message)) : Prop :=
  ∃ m ms rest, messages = (m :: ms).map some ++ rest ∧ rest.head?.join = none ∧
    m.word 4 ≤ 2000000 ∧ BeginsTiling (m.word 4) 0 (m :: ms)

/-! ### A round -/

theorem length_chunk {total pos : Nat} {m : Message} (h : InPlace total pos m) :
    m.chunk.length = m.word 12 := by
  have hcarried := h.carried
  rw [Message.chunk, length_take, length_drop]
  omega

namespace Download

/-- What has been stored is `front`, and the rest of the block is not written. -/
structure Holds (d : Download) (front : List UInt8) : Prop where
  file   : d.file = front.map some ++ List.replicate (d.total - d.expect) none
  expect : d.expect = front.length
  fits   : d.expect ≤ d.total
  small  : d.total ≤ slPicture

/-- The download behind a chunk in its place. -/
def behind (d : Download) (m : Message) : Download where
  total  := d.total
  file   := copyTo d.file d.expect m.chunk
  expect := d.expect + m.word 12

variable {d : Download} {front : List UInt8} {m : Message}

theorem Holds.start {total : Nat} (h : total ≤ slPicture) : (start total).Holds [] where
  file   := rfl
  expect := rfl
  fits   := Nat.zero_le total
  small  := h

section
variable (h : d.Holds front)
include h

theorem Holds.length_file : d.file.length = d.total := by
  have hexpect := h.expect
  have hfits := h.fits
  rw [h.file, length_append, length_map, length_replicate]
  omega

theorem Holds.behind (hm : InPlace d.total d.expect m) :
    (d.behind m).Holds (front ++ m.chunk) where
  file := by
    have hexpect := h.expect
    have hlength := length_chunk hm
    have hinside := hm.inside
    show copyTo d.file d.expect m.chunk = _
    rw [copyTo, h.file, hexpect]
    have hfront : (front.map some).length = front.length := length_map some
    rw [← hfront, List.take_left, List.drop_append, hfront, Nat.add_sub_cancel_left,
      List.drop_of_length_le (by omega), List.nil_append, List.drop_replicate, List.map_append]
    show _ = _ ++ List.replicate (d.total - (d.expect + m.word 12)) none
    rw [hlength, hexpect, Nat.sub_sub]
  expect := by
    show d.expect + m.word 12 = _
    rw [length_append, length_chunk hm, h.expect]
  fits := hm.inside
  small := h.small

/-- A chunk fits if it is in its place: the sums of the check do not wrap around. -/
theorem Holds.not_misfits_iff (hm : ¬ m.refused) :
    ¬ d.misfits m ↔ InPlace d.total d.expect m := by
  have hfits := h.fits
  have hsmall := h.small
  have hpicture : slPicture = 10485760 := rfl
  have hlength := m.bytes_length
  have hheader : ¬ m.bytes.length < 20 := fun hshort => hm (Or.inl hshort)
  constructor
  · intro hin
    simp only [misfits, not_or, ne_eq, not_not] at hin
    obtain ⟨hoffset, hinside, hcarried⟩ := hin
    -- the length of the message bounds the size
    exact ⟨hm, hoffset, by omega, by omega⟩
  · intro hin hout
    have hcarried := hin.carried
    have hinside := hin.inside
    rcases hout with hout | hout | hout
    · exact hout hin.offset
    · omega
    · omega

theorem Holds.store_run (hm : InPlace d.total d.expect m)
    (messages : List (Option Message)) :
    d.store m messages = some (.ok (d.behind m), messages) := by
  have hcarried := hm.carried
  have hinside := hm.inside
  have hsmall := h.small
  have hpicture : slPicture = 10485760 := rfl
  have hlength := h.length_file
  have hin : ¬ (20 + m.word 12 > m.bytes.length ∨ d.expect + m.word 12 > d.file.length) := by
    omega
  have hmod : (d.expect + m.word 12) % 4294967296 = d.expect + m.word 12 :=
    Nat.mod_eq_of_lt (by omega)
  rw [store, if_neg hin, hmod]
  rfl

end

/-- The end mark says whether the range is full. -/
def Marks (d : Download) (m : Message) : Prop :=
  m.word 16 = if d.expect + m.word 12 = d.total then 1 else 0

variable (h : d.Holds front)
include h

theorem Holds.take_run (hm : InPlace d.total d.expect m) (hmark : d.Marks m)
    (messages : List (Option Message)) :
    d.take m messages = some (.ok (d.behind m), messages) := by
  have hfits := (h.not_misfits_iff hm.accepted).mpr hm
  have hend : ¬ ((if (d.behind m).expect = (d.behind m).total then 1 else 0) ≠ m.word 16) :=
    fun hne => hne hmark.symm
  rw [take, if_neg hfits, bind_run_ok (h.store_run hm messages), if_neg hend]
  rfl

theorem Holds.take_error (hm : ¬ m.refused)
    (hbad : ¬ (InPlace d.total d.expect m ∧ d.Marks m)) (messages : List (Option Message)) :
    d.take m messages = some (.error gpError, messages) := by
  by_cases hin : InPlace d.total d.expect m
  · have hfits := (h.not_misfits_iff hm).mpr hin
    have hend : (if (d.behind m).expect = (d.behind m).total then 1 else 0) ≠ m.word 16 :=
      fun heq => hbad ⟨hin, heq.symm⟩
    rw [take, if_neg hfits, bind_run_ok (h.store_run hin messages), if_pos hend]
    rfl
  · have hmisfits : d.misfits m := by
      by_contra hfits
      exact hin ((h.not_misfits_iff hm).mp hfits)
    rw [take, if_pos hmisfits]
    rfl

theorem Holds.file_eq (hfull : d.expect = d.total) :
    d.file = front.map some := by
  rw [h.file, hfull, Nat.sub_self, List.replicate_zero, append_nil]

theorem Holds.none_mem (hopen : d.expect ≠ d.total) : none ∈ d.file := by
  have hfits := h.fits
  rw [h.file, List.mem_append]
  exact Or.inr (List.mem_replicate.mpr ⟨by omega, rfl⟩)

end Download

/-! ### The loops -/

/-- The outcome of a loop that has stored `front` up to `pos`, at the message `m`: a file if the
messages it takes tile the rest. -/
def RestTiled (total pos : Nat) (front : List UInt8) (m : Message)
    (messages : List (Option Message)) (file : Memory) (rest : List (Option Message)) : Prop :=
  ∃ ms, some m :: messages = (m :: ms).map some ++ rest ∧ Tiles total pos (m :: ms) ∧
    file = (front ++ (m :: ms).flatMap Message.chunk).map some

section

variable {d : Download} {front : List UInt8} {m : Message}

theorem RestTiled.last (h : d.Holds front) (hm : InPlace d.total d.expect m) (hmark : d.Marks m)
    (hfull : d.expect + m.word 12 = d.total) (messages : List (Option Message)) :
    RestTiled d.total d.expect front m messages (d.behind m).file messages := by
  have hone : m.word 16 = 1 := by
    rw [hmark, if_pos hfull]
  have hfile := (h.behind hm).file_eq hfull
  refine ⟨[], rfl, ⟨hm, Or.inl ⟨hfull, hone, rfl⟩⟩, ?_⟩
  rw [hfile, flatMap_cons, List.flatMap_nil, append_nil]

variable {messages : List (Option Message)}

theorem RestTiled.cons (hm : InPlace d.total d.expect m) (hmark : d.Marks m)
    (hopen : d.expect + m.word 12 ≠ d.total) {m' : Message} {rest : List (Option Message)}
    {file : Memory}
    (h : RestTiled d.total (d.expect + m.word 12) (front ++ m.chunk) m' messages file rest) :
    RestTiled d.total d.expect front m (some m' :: messages) file rest := by
  obtain ⟨ms, hmessages, htiles, hfile⟩ := h
  have hzero : m.word 16 = 0 := by
    rw [hmark, if_neg hopen]
  refine ⟨m' :: ms, ?_, ⟨hm, Or.inr ⟨hopen, hzero, htiles⟩⟩, ?_⟩
  · rw [hmessages]
    rfl
  · rw [hfile, List.append_assoc]
    rfl

/-- What follows the header of `canon_serial_get_file`, from a download that has been begun. -/
theorem getFileLoop_ends {fuel : Nat} (h : d.Holds front)
    (hfuel : messages.length < fuel) {begun' : Option Download}
    (hbegun : ∀ s, begun begun' m s = some (.ok d, s)) :
    Ends (RestTiled d.total d.expect front m messages) (fun _ _ => True)
      (getFileLoop fuel begun' m messages) := by
  induction fuel generalizing d front m messages begun' with
  | zero => omega
  | succ fuel ih =>
    rw [getFileLoop]
    by_cases hrefused : m.refused
    · rw [if_pos hrefused]
      trivial
    rw [if_neg hrefused, bind_run_ok (hbegun messages)]
    by_cases hgood : InPlace d.total d.expect m ∧ d.Marks m
    · obtain ⟨hm, hmark⟩ := hgood
      rw [bind_run_ok (h.take_run hm hmark messages)]
      by_cases hfull : d.expect + m.word 12 = d.total
      · rw [if_pos (show (d.behind m).expect = (d.behind m).total from hfull)]
        exact RestTiled.last h hm hmark hfull messages
      · rw [if_neg (show ¬ (d.behind m).expect = (d.behind m).total from hfull)]
        rcases messages with _ | ⟨_ | m', messages⟩
        · trivial
        · trivial
        · -- the next message is at the end of this one
          rw [length_cons] at hfuel
          show Ends _ _ (getFileLoop fuel (some (d.behind m)) m' messages)
          exact (ih (h.behind hm) (by omega) (fun _ => rfl)).mono
            (fun _ _ hrest => hrest.cons hm hmark hfull) fun _ _ _ => trivial
    · rw [bind_run_error (h.take_error hrefused hgood messages)]
      trivial

/-- The messages from `m` on break off. -/
def RestBreaksOff (total pos : Nat) (m : Message) (messages : List (Option Message)) : Prop :=
  ∃ ms rest, some m :: messages = (m :: ms).map some ++ rest ∧ rest.head?.join = none ∧
    BeginsTiling total pos (m :: ms)

theorem RestBreaksOff.cons (hm : InPlace d.total d.expect m) (hmark : d.Marks m)
    (hopen : d.expect + m.word 12 ≠ d.total) {m' : Message}
    (h : RestBreaksOff d.total (d.expect + m.word 12) m' messages) :
    RestBreaksOff d.total d.expect m (some m' :: messages) := by
  obtain ⟨ms, rest, hmessages, hend, hbegins⟩ := h
  have hzero : m.word 16 = 0 := by
    rw [hmark, if_neg hopen]
  refine ⟨m' :: ms, rest, ?_, hend, hm, hopen, hzero, hbegins⟩
  rw [hmessages]
  rfl

/-- The loop of `canon_serial_get_thumbnail` returns a tiled file, or its messages break off. -/
theorem getThumbnailLoop_ends {fuel : Nat} (h : d.Holds front)
    (hfuel : messages.length < fuel) :
    Ends (fun file rest => RestTiled d.total d.expect front m messages file rest ∨
        RestBreaksOff d.total d.expect m messages) (fun _ _ => True)
      (getThumbnailLoop fuel d m messages) := by
  induction fuel generalizing d front m messages with
  | zero => omega
  | succ fuel ih =>
    rw [getThumbnailLoop]
    by_cases hrefused : m.refused
    · rw [if_pos hrefused]
      trivial
    rw [if_neg hrefused]
    by_cases hgood : InPlace d.total d.expect m ∧ d.Marks m
    · obtain ⟨hm, hmark⟩ := hgood
      rw [bind_run_ok (h.take_run hm hmark messages)]
      by_cases hfull : d.expect + m.word 12 = d.total
      · rw [if_pos (show (d.behind m).expect = (d.behind m).total from hfull)]
        exact Or.inl (RestTiled.last h hm hmark hfull messages)
      · rw [if_neg (show ¬ (d.behind m).expect = (d.behind m).total from hfull)]
        have hzero : m.word 16 = 0 := by
          rw [hmark, if_neg hfull]
        rcases messages with _ | ⟨_ | m', messages⟩
        · exact Or.inr ⟨[], [], rfl, rfl, hm, hfull, hzero, trivial⟩
        · exact Or.inr ⟨[], none :: messages, rfl, rfl, hm, hfull, hzero, trivial⟩
        · rw [length_cons] at hfuel
          show Ends _ _ (getThumbnailLoop fuel (d.behind m) m' messages)
          exact (ih (h.behind hm) (by omega)).mono
            (fun _ _ hrest => hrest.imp (·.cons hm hmark hfull) (·.cons hm hmark hfull))
            fun _ _ _ => trivial
    · rw [bind_run_error (h.take_error hrefused hgood messages)]
      trivial

/-- Where the messages break off, the loop returns a block that is not full. -/
theorem getThumbnailLoop_breaksOff {fuel : Nat}
    (h : d.Holds front) (hfuel : messages.length < fuel)
    (hbreaks : RestBreaksOff d.total d.expect m messages) :
    ∃ file rest, getThumbnailLoop fuel d m messages = some (.ok file, rest) ∧ none ∈ file := by
  induction fuel generalizing d front m messages with
  | zero => omega
  | succ fuel ih =>
    obtain ⟨ms, rest, hmessages, hend, hm, hopen, hzero, hbegins⟩ := hbreaks
    have hmark : d.Marks m := by
      rw [Download.Marks, if_neg hopen, hzero]
    rw [getThumbnailLoop, if_neg hm.accepted, bind_run_ok (h.take_run hm hmark messages),
      if_neg (show ¬ (d.behind m).expect = (d.behind m).total from hopen)]
    cases ms with
    | nil =>
      have hrest : messages = rest := (List.cons.inj hmessages).2
      subst hrest
      have hnone := (h.behind hm).none_mem hopen
      rcases messages with _ | ⟨_ | m', messages⟩
      · exact ⟨_, _, rfl, hnone⟩
      · exact ⟨_, _, rfl, hnone⟩
      · cases hend
    | cons m' ms =>
      have hrest : messages = some m' :: (ms.map some ++ rest) := (List.cons.inj hmessages).2
      subst hrest
      rw [length_cons] at hfuel
      show ∃ file rest', getThumbnailLoop fuel (d.behind m) m' (ms.map some ++ rest) =
        some (.ok file, rest') ∧ none ∈ file
      exact ih (h.behind hm) (by omega) ⟨ms, rest, rfl, hend, hbegins⟩

end

/-! ### The functions -/

/-- A file that `canon_serial_get_file` returns is tiled by its chunks. -/
theorem getFile_tiled (messages : List (Option Message)) :
    TiledOutcome messages (getFile messages) := by
  rw [getFile, get_bind_run]
  rcases messages with _ | ⟨_ | m, messages⟩
  · trivial
  · trivial
  · show Ends _ _ (getFileLoop (messages.length + 1 + 1) none m messages)
    by_cases hlarge : m.word 4 > slPicture
    · rw [getFileLoop]
      by_cases hrefused : m.refused
      · rw [if_pos hrefused]
        trivial
      · rw [if_neg hrefused, begun, if_pos hlarge]
        trivial
    · have hbegun : ∀ s, begun none m s = some (.ok (Download.start (m.word 4)), s) := by
        intro s
        rw [begun, if_neg hlarge]
        rfl
      have hstart : (Download.start (m.word 4)).Holds [] :=
        Download.Holds.start (Nat.not_lt.mp hlarge)
      have hends := getFileLoop_ends hstart
        (show messages.length < messages.length + 1 + 1 by omega) hbegun
      exact hends.mono (fun file rest hrest => ⟨m, hrest⟩) fun _ _ _ => trivial

theorem getThumbnail_tiled {messages : List (Option Message)} (h : ¬ BreaksOff messages) :
    TiledOutcome messages (getThumbnail messages) := by
  rw [getThumbnail, get_bind_run]
  rcases messages with _ | ⟨_ | m, messages⟩
  · trivial
  · trivial
  · rw [bind_run_ok (show nextMessage (some m :: messages) = some (.ok m, messages) from rfl)]
    by_cases hlarge : m.word 4 > 2000000
    · rw [if_pos hlarge]
      trivial
    · rw [if_neg hlarge]
      have hpicture : slPicture = 10485760 := rfl
      have hstart : (Download.start (m.word 4)).Holds [] := Download.Holds.start (by omega)
      have hends := getThumbnailLoop_ends (m := m) hstart
        (show messages.length < messages.length + 1 + 1 by omega)
      refine hends.mono (fun file rest hrest => ?_) fun _ _ _ => trivial
      rcases hrest with hrest | hrest
      · exact ⟨m, hrest⟩
      · obtain ⟨ms, rest, hmessages, hend, hbegins⟩ := hrest
        exact absurd ⟨m, ms, rest, hmessages, hend, Nat.not_lt.mp hlarge, hbegins⟩ h

/-- A thumbnail whose messages break off is returned, and it is not tiled. -/
theorem getThumbnail_breaksOff {messages : List (Option Message)} (h : BreaksOff messages) :
    ¬ TiledOutcome messages (getThumbnail messages) := by
  intro htiled
  obtain ⟨m, ms, rest, rfl, hend, hsmall, hbegins⟩ := h
  have hpicture : slPicture = 10485760 := rfl
  have hbegun : (Download.start (m.word 4)).Holds [] := Download.Holds.start (by omega)
  have hrest : RestBreaksOff (m.word 4) 0 m (ms.map some ++ rest) :=
    ⟨ms, rest, rfl, hend, hbegins⟩
  obtain ⟨file, rest', hrun, hnone⟩ := getThumbnailLoop_breaksOff hbegun
    (show (ms.map some ++ rest).length < (ms.map some ++ rest).length + 1 + 1 by omega) hrest
  have hall : getThumbnail ((m :: ms).map some ++ rest) = some (.ok file, rest') := by
    have hsmall' : ¬ m.word 4 > 2000000 := by omega
    have hnext : nextMessage ((m :: ms).map some ++ rest) = some (.ok m, ms.map some ++ rest) := rfl
    rw [getThumbnail, get_bind_run, bind_run_ok hnext, if_neg hsmall']
    exact hrun
  obtain ⟨m', ms', -, -, hfile⟩ := htiled.of_ok hall
  rw [hfile] at hnone
  simp at hnone

/-- **The files and thumbnails of the serial line are whole, except for a thumbnail whose messages
break off.** -/
theorem tiled_iff (messages : List (Option Message)) :
    (TiledOutcome messages (getFile messages) ∧ TiledOutcome messages (getThumbnail messages)) ↔
      ¬ BreaksOff messages := by
  constructor
  · intro hboth hbreaks
    exact getThumbnail_breaksOff hbreaks hboth.2
  · intro hwhole
    exact ⟨getFile_tiled messages, getThumbnail_tiled hwhole⟩

/-- A message with the first of two bytes. -/
def firstHalf : Message where
  bytes := [0, 0, 0, 0, 2, 0, 0, 0, 0, 0, 0, 0, 1, 0, 0, 0, 0, 0, 0, 0, 0xff]
  bytes_length := by decide

/-- The first half of a thumbnail, and nothing behind it: it is returned, with a byte that was never
written. -/
theorem getThumbnail_half :
    (getThumbnail [some firstHalf, none]).map (fun outcome => outcome.1.toOption) =
        some (some [some 0xff, none]) ∧
      ¬ TiledOutcome [some firstHalf, none] (getThumbnail [some firstHalf, none]) := by
  have hrun : (getThumbnail [some firstHalf, none]).map (fun outcome => outcome.1.toOption) =
      some (some [some 0xff, none]) := by
    decide +kernel
  refine ⟨hrun, fun htiled => ?_⟩
  obtain ⟨rest, hvalue⟩ := exists_of_value hrun
  obtain ⟨m, ms, -, -, hfile⟩ := htiled.of_ok hvalue
  have hnone : none ∈ ([some 0xff, none] : Memory) := by decide
  rw [hfile] at hnone
  simp at hnone

end GPhoto2.Canon
