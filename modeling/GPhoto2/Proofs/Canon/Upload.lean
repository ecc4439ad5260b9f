import GPhoto2.Canon.RecvMsg
import GPhoto2.Lib.Chunk
import GPhoto2.Proofs.Canon.Serial

/-!
# `GPhoto2.Proofs.Canon.Upload`: which files are sent as they are

`Faithful` says of a file that, whatever the camera answers, its messages carry its bytes in order,
the fragments of each message make it up again, and nothing leaves a buffer. `faithful_iff` says for
which files this is so. The function reads whole blocks from the data of the file, and the second
fragment takes what is behind 900 bytes, so the size must be a multiple of 1536 and the two names
short.
-/

set_option autoImplicit false

namespace GPhoto2.Canon

open Lib
open Lib.Comp (Ends bind_run_none bind_run_ok)
open List (append_assoc append_nil length_append length_drop length_take)

/-! ### What is wanted -/

/-- The messages for blocks of a file, from an offset on. -/
def messagesFor (destpath destname : List UInt8) : Nat → List (List UInt8) → List (List UInt8)
  | _, [] => []
  | offset, block :: rest =>
    composeMsg 0x3 0x11 (blockArgs destpath destname offset block) ::
      messagesFor destpath destname (offset + block.length) rest

/-- The fragments of each transmission since then make up its message, and it is one of the
messages. -/
def Intact (s s' : Upload) : Prop :=
  ∃ sent, s'.transmissions = s.transmissions ++ sent ∧
    ∀ t ∈ sent, t.fragments.flatten = t.message ∧ t.message ∈ s'.messages

/-- What an upload should come to, from this state on, for a list of messages. -/
def Sends (wanted : List (List UInt8)) (s : Upload) :
    Option (Except Int Unit × Upload) → Prop :=
  Ends (fun _ s' => s'.messages = s.messages ++ wanted ∧ Intact s s')
    fun _ s' => (∃ done, s'.messages = s.messages ++ done ∧ done <+: wanted) ∧ Intact s s'

/-- Before an upload. -/
def uploadStart (acks : List Int) (replies : List Reply) : Upload where
  messages      := []
  transmissions := []
  acks          := acks
  replies       := replies

/-- A file that is sent as it is: its blocks make it up, and whatever the camera answers, there is a
message for each of them, with its offset and its length, or for the first ones of them when the
upload fails. -/
def Faithful (name destname destpath data : List UInt8) : Prop :=
  ∃ parts : List (List UInt8), parts.flatten = data ∧ (∀ part ∈ parts, part ≠ []) ∧
    ∀ acks replies, Sends (messagesFor destpath destname 0 parts) (uploadStart acks replies)
      (putFile name destname destpath data (uploadStart acks replies))

/-- The files that are sent as they are. -/
def Fitting (name destname destpath data : List UInt8) : Prop :=
  name.length < filenameSize ∧
    (data = [] ∨ (dataBlock ∣ data.length ∧ data.length ≤ intMax ∧
      destpath.length + destname.length ≤ 351))

/-! ### Messages and fragments -/

theorem length_composeMsg (mtype dir : UInt8) (args : List (List UInt8)) :
    (composeMsg mtype dir args).length = msgHdrLen + args.flatten.length := by
  rw [composeMsg, length_append]
  rfl

variable (destpath destname : List UInt8) (offset : Nat)

theorem length_blockArgs (block : List UInt8) :
    (blockArgs destpath destname offset block).flatten.length =
      13 + destpath.length + destname.length + block.length := by
  simp only [blockArgs, List.flatten_cons, List.flatten_nil, length_append, List.length_cons,
    List.length_nil, ByteOrder.length_encode]
  omega

/-- A fragment gets on the line just when the initial value of its checksum is known. -/
theorem sendFragment_run (seq : UInt8) {pkt : List UInt8} {len : Nat} (h : len ≤ pkt.length)
    (s : Upload) :
    sendFragment seq pkt len s =
      if 1 ≤ len ∧ len ≤ 1016 then some (.ok [pkt.take len], s) else none := by
  have hlength : (packetHeader pktMsg seq len ++
      pkt.take (packetDataLength pktMsg len)).length = 4 + len := by
    have hdata : packetDataLength pktMsg len = len := if_neg (by decide)
    rw [length_append, length_packetHeader, hdata, length_take, Nat.min_eq_left h]
    rfl
  by_cases hknown : 1 ≤ len ∧ len ≤ 1016
  · have hk : KnownLength (packetHeader pktMsg seq len ++
        pkt.take (packetDataLength pktMsg len)).length := by
      rw [hlength]
      exact ⟨by omega, by omega⟩
    obtain ⟨crc, -, hsend⟩ := sendPacket_known hk
    rw [sendFragment, hsend, if_pos hknown]
    rfl
  · have hk : ¬ KnownLength (packetHeader pktMsg seq len ++
        pkt.take (packetDataLength pktMsg len)).length := by
      rw [hlength]
      intro hk
      exact hknown ⟨by have := hk.1; omega, by have := hk.2; omega⟩
    rw [sendFragment, sendPacket, genCrc_unknown hk, if_neg hknown]
    rfl

/-- A transmission of a message: its two fragments, unless the second one is empty or too long for a
checksum. -/
theorem transmit_run {pkt : List UInt8} (h : uploadDataBlock ≤ pkt.length) (s : Upload) :
    transmit pkt s =
      if uploadDataBlock < pkt.length ∧ pkt.length ≤ uploadDataBlock + 1016 then
        some (.ok (), { s with
          transmissions := s.transmissions ++
            [{ message   := pkt
               fragments := [pkt.take uploadDataBlock, pkt.drop uploadDataBlock] }] })
      else none := by
  have hblock : uploadDataBlock = 900 := rfl
  have hrest : (pkt.drop uploadDataBlock).length = pkt.length - uploadDataBlock :=
    length_drop
  have hfirst : sendFragment 0 pkt uploadDataBlock s =
      some (.ok [pkt.take uploadDataBlock], s) := by
    rw [sendFragment_run 0 h, if_pos (by omega)]
  have hsecond := sendFragment_run 1 (Nat.le_of_eq hrest.symm) s
  rw [transmit, bind_run_ok hfirst]
  by_cases hfits : uploadDataBlock < pkt.length ∧ pkt.length ≤ uploadDataBlock + 1016
  · rw [if_pos (by omega)] at hsecond
    rw [bind_run_ok hsecond, if_pos hfits, List.take_of_length_le (Nat.le_of_eq hrest)]
    rfl
  · rw [if_neg (by omega)] at hsecond
    rw [bind_run_none hsecond, if_neg hfits]

/-- Only transmissions of this message have been added. -/
def Repeats (pkt : List UInt8) (s s' : Upload) : Prop :=
  s'.messages = s.messages ∧ ∃ k, s'.transmissions = s.transmissions ++
    List.replicate k
      { message := pkt, fragments := [pkt.take uploadDataBlock, pkt.drop uploadDataBlock] }

theorem Repeats.refl (pkt : List UInt8) (s : Upload) : Repeats pkt s s :=
  ⟨rfl, 0, (append_nil _).symm⟩

theorem Repeats.trans {pkt : List UInt8} {s₁ s₂ s₃ : Upload} (h : Repeats pkt s₁ s₂)
    (h' : Repeats pkt s₂ s₃) : Repeats pkt s₁ s₃ := by
  obtain ⟨hmessages, k, hsent⟩ := h
  obtain ⟨hmessages', k', hsent'⟩ := h'
  refine ⟨hmessages'.trans hmessages, k + k', ?_⟩
  rw [hsent', hsent, append_assoc, List.replicate_append_replicate]

section
variable {pkt : List UInt8} (hlow : uploadDataBlock < pkt.length)
  (hhigh : pkt.length ≤ uploadDataBlock + 1016)
include hlow hhigh

theorem sendTries_ends (n : Nat) (s : Upload) :
    Ends (fun okay s' => okay ≠ 0 ∧ Repeats pkt s s') (fun _ _ => False)
      (sendTries pkt n s) := by
  induction n generalizing s with
  | zero => exact ⟨by decide, Repeats.refl pkt s⟩
  | succ n ih =>
    have hsent := transmit_run (Nat.le_of_lt hlow) s
    rw [if_pos ⟨hlow, hhigh⟩] at hsent
    rw [sendTries, bind_run_ok hsent]
    show Ends _ _ ((if s.acks.headD 1 = 1 then pure (s.acks.headD 1) else sendTries pkt n :
      Comp Upload Int Int) _)
    refine Ends.ite (fun hack => ?_) fun _ => ?_
    · refine ⟨?_, rfl, 1, rfl⟩
      rw [hack]
      decide
    · refine (ih _).mono (fun okay s' hs' => ⟨hs'.1, ?_⟩) fun _ _ => id
      obtain ⟨hmessages, k, hrest⟩ := hs'.2
      refine ⟨hmessages, k + 1, ?_⟩
      rw [hrest, append_assoc]
      rfl

theorem sendMsg_ends (s : Upload) :
    Ends (fun okay s' => okay ≠ 0 ∧ Repeats pkt s s') (fun _ _ => False)
      (sendMsg pkt s) := by
  have hblock : uploadDataBlock = 900 := rfl
  have hheader : pktHdrLen = 4 := rfl
  have hsize : messageBufferSize = 65537 := rfl
  rw [sendMsg, if_neg (by omega), if_neg (by omega)]
  exact sendTries_ends hlow hhigh maxTries s

theorem dialogueTries_ends (n : Nat) (s : Upload) :
    Ends (fun _ s' => Repeats pkt s s') (fun _ _ => False) (dialogueTries pkt n s) := by
  induction n generalizing s with
  | zero => exact Repeats.refl pkt s
  | succ n ih =>
    refine Ends.bind (sendMsg_ends hlow hhigh s) ?_
    rintro okay s₁ ⟨hokay, hs₁⟩
    have hreply : nextReply s₁ =
        some (.ok (s₁.replies.headD .message), { s₁ with replies := s₁.replies.tail }) := rfl
    rw [if_neg hokay, bind_run_ok hreply]
    cases s₁.replies.headD .message with
    | message => exact hs₁
    | null => exact hs₁
    | again => exact (ih _).mono (fun _ s' hs' => Repeats.trans hs₁ hs') fun _ _ => id

end

/-- A call of `canon_serial_dialogue` for a message that fits. -/
theorem dialogue_ends {mtype dir : UInt8} {args : List (List UInt8)} {s : Upload}
    (hlow : uploadDataBlock < (composeMsg mtype dir args).length)
    (hhigh : (composeMsg mtype dir args).length ≤ uploadDataBlock + 1016) :
    Ends
      (fun _ s' => s'.messages = s.messages ++ [composeMsg mtype dir args] ∧ Intact s s')
      (fun _ _ => False) (dialogue mtype dir args s) := by
  refine (dialogueTries_ends hlow hhigh _ _).mono (fun _ s' hs' => ?_) fun _ _ => id
  obtain ⟨hmessages, k, hsent⟩ := hs'
  refine ⟨hmessages, _, hsent, fun t ht => ?_⟩
  rw [List.eq_of_mem_replicate ht, hmessages]
  refine ⟨?_, List.mem_append_right _ (List.mem_singleton.mpr rfl)⟩
  rw [List.flatten_cons, List.flatten_singleton, List.take_append_drop]

/-! ### Files that are sent as they are -/

theorem Intact.trans {s₁ s₂ s₃ : Upload} (h : Intact s₁ s₂) (h' : Intact s₂ s₃)
    (hmessages : ∃ more, s₃.messages = s₂.messages ++ more) : Intact s₁ s₃ := by
  obtain ⟨sent, hsent, hgood⟩ := h
  obtain ⟨sent', hsent', hgood'⟩ := h'
  obtain ⟨more, hmore⟩ := hmessages
  refine ⟨sent ++ sent', by rw [hsent', hsent, append_assoc], fun t ht => ?_⟩
  rcases List.mem_append.mp ht with ht | ht
  · refine ⟨(hgood t ht).1, ?_⟩
    rw [hmore]
    exact List.mem_append_left _ (hgood t ht).2
  · exact hgood' t ht

theorem length_blockMsg {block : List UInt8}
    (hblock : block.length = dataBlock) :
    (composeMsg 0x3 0x11 (blockArgs destpath destname offset block)).length =
      1565 + destpath.length + destname.length := by
  rw [length_composeMsg, length_blockArgs, hblock]
  show 16 + (13 + _ + _ + 1536) = _
  omega

section
variable {destpath destname data : List UInt8} (hnames : destpath.length + destname.length ≤ 351)
  (hsize : data.length ≤ intMax)
include hnames hsize

theorem putBlocks_ends {n fuel sent : Nat} (hfuel : n < fuel)
    (hleft : data.length = sent + n * dataBlock) (s : Upload) :
    Sends (messagesFor destpath destname sent (blocks dataBlock n (data.drop sent))) s
      (putBlocks destpath destname data fuel sent sent s) := by
  have hdata : dataBlock = 1536 := rfl
  have hmax : intMax = 2147483647 := rfl
  induction n generalizing fuel sent s with
  | zero =>
    obtain ⟨fuel, rfl⟩ : ∃ m, fuel = m + 1 := ⟨fuel - 1, by omega⟩
    rw [putBlocks, if_neg (by omega)]
    exact ⟨(append_nil _).symm, [], (append_nil _).symm, fun t ht => by cases ht⟩
  | succ n ih =>
    obtain ⟨fuel, rfl⟩ : ∃ m, fuel = m + 1 := ⟨fuel - 1, by omega⟩
    have hmul : (n + 1) * dataBlock = n * dataBlock + dataBlock := Nat.succ_mul n dataBlock
    have hwhole : ¬ data.length < dataBlock := by omega
    have hlast : ¬ data.length - sent < dataBlock := by omega
    have hblock : ((data.drop sent).take dataBlock).length = dataBlock := by
      rw [length_take, length_drop]
      omega
    have htake : ((data.drop sent).take dataBlock).take dataBlock =
        (data.drop sent).take dataBlock := List.take_of_length_le (Nat.le_of_eq hblock)
    have hmod : (sent + dataBlock) % 4294967296 = sent + dataBlock := Nat.mod_eq_of_lt (by omega)
    have hlength := length_blockMsg destpath destname sent hblock
    rw [putBlocks, if_pos (by omega), if_neg hwhole, if_neg hlast, if_neg (by omega), htake, hmod,
      blocks, messagesFor, hblock, List.drop_drop]
    have hupload : uploadDataBlock = 900 := rfl
    refine Ends.bind ((dialogue_ends (by omega) (by omega)).mono (fun _ _ => id)
      fun _ _ hnever => hnever.elim) ?_
    rintro msg s₁ ⟨hmessages, hintact⟩
    refine Ends.ite (fun _ => ?_) fun _ => ?_
    · exact ⟨⟨_, hmessages, List.prefix_append [_] _⟩, hintact⟩
    · have hrest := @ih fuel (sent + dataBlock) (by omega) (by omega) s₁
      refine hrest.mono (fun _ s' hs' => ?_) fun _ s' hs' => ?_
      · refine ⟨?_, hintact.trans hs'.2 ⟨_, hs'.1⟩⟩
        rw [hs'.1, hmessages, append_assoc]
        rfl
      · obtain ⟨⟨done, hdone, hprefix⟩, hintact'⟩ := hs'
        refine ⟨⟨_ :: done, ?_, (List.prefix_cons_inj _).mpr hprefix⟩,
          hintact.trans hintact' ⟨done, hdone⟩⟩
        rw [hdone, hmessages, append_assoc]
        rfl

end

theorem mem_blocks_ne_nil {c n : Nat} (hc : 0 < c) {xs : List UInt8} (h : n * c ≤ xs.length) :
    ∀ block ∈ blocks c n xs, block ≠ [] := by
  induction n generalizing xs with
  | zero =>
    intro block hblock
    cases hblock
  | succ n ih =>
    rw [Nat.succ_mul] at h
    intro block hblock
    rcases List.mem_cons.mp hblock with rfl | hblock
    · intro hnil
      have hlength := congrArg List.length hnil
      rw [length_take, List.length_nil] at hlength
      omega
    · refine ih ?_ block hblock
      rw [length_drop]
      omega

theorem faithful_of_fitting {name destname destpath data : List UInt8}
    (h : Fitting name destname destpath data) : Faithful name destname destpath data := by
  obtain ⟨hname, hfits⟩ := h
  have hput : putFile name destname destpath data =
      putBlocks destpath destname data (data.length + 1) 0 0 :=
    if_neg (Nat.not_lt.mpr hname)
  rcases hfits with rfl | ⟨hwhole, hsize, hnames⟩
  · refine ⟨[], rfl, fun part hpart => ?_, fun acks replies => ?_⟩
    · cases hpart
    · have hnone : ¬ 0 < ([] : List UInt8).length := Nat.lt_irrefl 0
      rw [hput, putBlocks, if_neg hnone]
      refine ⟨rfl, [], rfl, fun t ht => ?_⟩
      cases ht
  · obtain ⟨n, hn⟩ := hwhole
    rw [Nat.mul_comm] at hn
    have hblock : dataBlock = 1536 := rfl
    refine ⟨blocks dataBlock n data, ?_, mem_blocks_ne_nil (by decide) (Nat.le_of_eq hn.symm),
      fun acks replies => ?_⟩
    · rw [flatten_blocks, ← hn, List.take_length]
    · rw [hput]
      refine putBlocks_ends hnames hsize ?_ (by omega) _
      rw [hblock] at hn
      omega

/-! ### Files that are not -/

theorem dialogue_stuck {mtype dir : UInt8} {args : List (List UInt8)} {s : Upload}
    (hlow : uploadDataBlock ≤ (composeMsg mtype dir args).length)
    (h : ¬ (uploadDataBlock < (composeMsg mtype dir args).length ∧
      (composeMsg mtype dir args).length ≤ uploadDataBlock + 1016)) :
    dialogue mtype dir args s = none := by
  have hsent : ∀ s, sendMsg (composeMsg mtype dir args) s = none := by
    intro s
    rw [sendMsg]
    by_cases hsize : pktHdrLen + (composeMsg mtype dir args).length > messageBufferSize
    · rw [if_pos hsize]
      rfl
    · rw [if_neg hsize, if_neg (Nat.not_lt.mpr hlow)]
      have hnone := transmit_run hlow s
      rw [if_neg h] at hnone
      exact bind_run_none hnone
  rw [dialogue, Comp.modify_bind_run, show maxTries - 1 = 8 + 1 from rfl, dialogueTries,
    bind_run_none (hsent _)]

theorem dialogue_quiet {mtype dir : UInt8} {args : List (List UInt8)} {s : Upload}
    (hlow : uploadDataBlock < (composeMsg mtype dir args).length)
    (hhigh : (composeMsg mtype dir args).length ≤ uploadDataBlock + 1016)
    (hacks : s.acks = []) (hreplies : s.replies = []) :
    ∃ s', dialogue mtype dir args s = some (.ok true, s') ∧ s'.acks = [] ∧ s'.replies = [] := by
  have hsent : ∀ s : Upload, s.acks = [] → s.replies = [] →
      ∃ s', sendMsg (composeMsg mtype dir args) s = some (.ok 1, s') ∧ s'.acks = [] ∧
        s'.replies = [] := by
    intro s hacks hreplies
    have hblock : uploadDataBlock = 900 := rfl
    have hheader : pktHdrLen = 4 := rfl
    have hsize : messageBufferSize = 65537 := rfl
    have htransmit := transmit_run (Nat.le_of_lt hlow) s
    rw [if_pos ⟨hlow, hhigh⟩] at htransmit
    rw [sendMsg, if_neg (by omega), if_neg (by omega), show maxTries = 9 + 1 from rfl, sendTries,
      bind_run_ok htransmit]
    cases s
    cases hacks
    exact ⟨_, rfl, rfl, hreplies⟩
  obtain ⟨s', hrun, hacks', hreplies'⟩ := hsent { s with
    messages := s.messages ++ [composeMsg mtype dir args] } hacks hreplies
  rw [dialogue, Comp.modify_bind_run, show maxTries - 1 = 8 + 1 from rfl, dialogueTries,
    bind_run_ok hrun, if_neg (by decide)]
  cases s'
  cases hreplies'
  exact ⟨_, rfl, hacks', rfl⟩

/-- Where all goes well and nothing leaves the data, the rounds read whole blocks. -/
theorem putBlocks_whole {destpath destname data : List UInt8} {fuel sent : Nat} {s : Upload}
    (hacks : s.acks = []) (hreplies : s.replies = []) (hsent : sent ≤ data.length)
    (h : putBlocks destpath destname data fuel sent sent s ≠ none) :
    dataBlock ∣ data.length - sent ∧
      (sent < data.length → data.length ≤ intMax ∧
        destpath.length + destname.length ≤ 351) := by
  have hdata : dataBlock = 1536 := rfl
  have hmax : intMax = 2147483647 := rfl
  induction fuel generalizing sent s with
  | zero => exact absurd rfl h
  | succ fuel ih =>
    by_cases hmore : sent < data.length
    swap
    · refine ⟨?_, fun hlt => absurd hlt hmore⟩
      rw [Nat.sub_eq_zero_of_le (Nat.le_of_not_lt hmore)]
      exact Nat.dvd_zero _
    rw [putBlocks, if_pos hmore] at h
    by_cases hleaves : sent + dataBlock > data.length ∨ sent + dataBlock > intMax
    · rw [if_pos hleaves] at h
      exact absurd rfl h
    obtain ⟨hinside, hsmall⟩ := not_or.mp hleaves
    have hblock : ((data.drop sent).take dataBlock).length = dataBlock := by
      rw [length_take, length_drop]
      omega
    have htake : ((data.drop sent).take dataBlock).take dataBlock =
        (data.drop sent).take dataBlock := List.take_of_length_le (Nat.le_of_eq hblock)
    have hmod : (sent + dataBlock) % 4294967296 = sent + dataBlock := Nat.mod_eq_of_lt (by omega)
    have hlength := length_blockMsg destpath destname sent hblock
    have hwhole : ¬ data.length < dataBlock := by omega
    have hlast : ¬ data.length - sent < dataBlock := by omega
    have hupload : uploadDataBlock = 900 := rfl
    rw [if_neg hwhole, if_neg hlast, if_neg hleaves, htake, hmod] at h
    by_cases hnames : destpath.length + destname.length ≤ 351
    swap
    · rw [bind_run_none (dialogue_stuck (by omega) (by omega))] at h
      exact absurd rfl h
    obtain ⟨s', hrun, hacks', hreplies'⟩ := @dialogue_quiet 0x3 0x11
      (blockArgs destpath destname sent ((data.drop sent).take dataBlock)) s (by omega) (by omega)
      hacks hreplies
    rw [bind_run_ok hrun, if_neg (by decide)] at h
    obtain ⟨hdvd, hrest⟩ := ih hacks' hreplies' (by omega) h
    have hstep : data.length - sent = data.length - (sent + dataBlock) + dataBlock := by omega
    refine ⟨?_, fun _ => ⟨?_, hnames⟩⟩
    · rw [hstep]
      exact Nat.dvd_add hdvd (Nat.dvd_refl _)
    · by_cases hend : sent + dataBlock < data.length
      · exact (hrest hend).1
      · omega

theorem fitting_of_faithful {name destname destpath data : List UInt8}
    (h : Faithful name destname destpath data) : Fitting name destname destpath data := by
  obtain ⟨parts, -, -, hruns⟩ := h
  have hrun : putFile name destname destpath data (uploadStart [] []) ≠ none :=
    (hruns [] []).ne_none
  rw [putFile] at hrun
  by_cases hname : name.length + 1 > filenameSize
  · rw [if_pos hname] at hrun
    exact absurd rfl hrun
  rw [if_neg hname] at hrun
  obtain ⟨hdvd, hmore⟩ := putBlocks_whole rfl rfl (Nat.zero_le _) hrun
  refine ⟨by omega, ?_⟩
  by_cases hempty : data = []
  · exact Or.inl hempty
  · obtain ⟨hsize, hnames⟩ := hmore (List.length_pos_of_ne_nil hempty)
    exact Or.inr ⟨hdvd, hsize, hnames⟩

end GPhoto2.Canon
