import GPhoto2.Topfield.GetFile

/-!
# `GPhoto2.Proofs.Topfield.GetFile`: what a download comes to

`readings` are the packets that the recorder sends. `getFileFunc_complete_iff` compares a download
that succeeds with them. The function looks neither at the offsets nor at the size, it takes what is
in the buffer for the data of a short packet, and it succeeds at the end packet in every state. So
it has the announced file just when the recorder sends one in full and in order (`complete`), and
nothing disturbs the transfer (`Undisturbed`).
-/

set_option autoImplicit false

namespace GPhoto2.Topfield

open Lib
open List (suffix_refl)

/-! ### What is taken from a list of outcomes -/

section
variable {α : Type} (good : α → Prop)

/-- What has been taken of `l` when `rest` is left is good. -/
def TakenGood (l rest : List α) : Prop := ∃ taken, l = taken ++ rest ∧ ∀ a ∈ taken, good a

/-- The first `n` entries are good, as far as there are any. -/
def FirstGood (n : Nat) (l : List α) : Prop := ∀ i < n, ∀ a, l[i]? = some a → good a

variable {good}

theorem takenGood_tail {l rest : List α} (h : rest <:+ l.tail) :
    TakenGood good l rest ↔ (∀ a, l.head? = some a → good a) ∧ TakenGood good l.tail rest := by
  cases l with
  | nil =>
    constructor
    · intro hgood
      refine ⟨fun a ha => ?_, hgood⟩
      cases ha
    · exact And.right
  | cons b l =>
    constructor
    · rintro ⟨taken, heq, hgood⟩
      obtain ⟨taken', htail⟩ := h
      have htaken : taken = b :: taken' := by
        apply List.append_cancel_right
        rw [← heq]
        exact congrArg (b :: ·) htail.symm
      subst htaken
      refine ⟨fun a ha => ?_, taken', htail.symm, fun a ha => hgood a (List.mem_cons_of_mem _ ha)⟩
      cases ha
      exact hgood _ List.mem_cons_self
    · rintro ⟨hfirst, taken, heq, hgood⟩
      refine ⟨b :: taken, congrArg (b :: ·) heq, fun a ha => ?_⟩
      rcases List.mem_cons.mp ha with rfl | ha
      · exact hfirst _ rfl
      · exact hgood a ha

theorem takenGood_self (l : List α) : TakenGood good l l := by
  refine ⟨[], rfl, fun a ha => ?_⟩
  cases ha

theorem firstGood_zero (l : List α) : FirstGood good 0 l := by
  intro i hi
  omega

theorem firstGood_succ (n : Nat) (l : List α) :
    FirstGood good (n + 1) l ↔ (∀ a, l.head? = some a → good a) ∧ FirstGood good n l.tail := by
  constructor
  · intro h
    refine ⟨fun a ha => h 0 (by omega) a (by rwa [← List.head?_eq_getElem?]), fun i hi a ha => ?_⟩
    rw [List.getElem?_tail] at ha
    exact h (i + 1) (by omega) a ha
  · rintro ⟨hfirst, hrest⟩ i hi a ha
    cases i with
    | zero => exact hfirst a (by rwa [List.head?_eq_getElem?])
    | succ i => exact hrest i (by omega) a (by rwa [List.getElem?_tail])

end

/-! ### What the recorder sends -/

/-- The first `n` packets that come over the line, up to a read that fails. -/
def readings : Nat → Line → List Reading
  | 0, _ => []
  | n + 1, s =>
    match getTfPacket s with
    | some (.ok r, s') => { r := r, packet := s'.packet } :: readings n s'
    | _ => []

/-- The packets up to the first end packet. -/
def untilEnd : List Reading → List Reading
  | [] => []
  | x :: xs => if x.cmd = dataHddFileEnd then [x] else x :: untilEnd xs

/-- What is sent in a download that ends with an end packet. -/
def sent (s : Download) : List Reading :=
  untilEnd (readings (s.line.answers.length + 1) s.line)

/-- All bytes of the packet have been read, and the fields up to byte `n` are in it. Bytes come in
pairs. -/
def Reading.Full (x : Reading) (n : Nat) : Prop := n ≤ x.length ∧ (x.length + 1) / 2 * 2 ≤ x.r

instance (x : Reading) (n : Nat) : Decidable (x.Full n) := inferInstanceAs (Decidable (_ ∧ _))

/-- The packets carry the bytes from `n` on of a file of `size` bytes, in the order of their
offsets and with nothing else between them. -/
inductive Carries (size : Nat) : Nat → List Reading → List UInt8 → Prop
  | finish {x : Reading} (hend : x.cmd = dataHddFileEnd) : Carries size size [x] []
  | data {x : Reading} {xs : List Reading} {n : Nat} {file : List UInt8}
      (hdata : x.cmd = dataHddFileData) (hfull : x.Full 16) (hoffset : x.offset = n)
      (hrest : Carries size (n + x.bytes.length) xs file) :
      Carries size n (x :: xs) (x.bytes ++ file)

/-- The packets carry a file: its start with the size, and all its bytes. -/
def CarriesFile (xs : List Reading) (file : List UInt8) : Prop :=
  ∃ x rest, xs = x :: rest ∧ x.cmd = dataHddFileStart ∧ x.Full 22 ∧ Carries x.size 0 rest file

/-- The packets behind the start packet are data packets in order, and an end packet where the size
is reached. -/
def inOrder (size : Nat) : Nat → List Reading → Bool
  | _, [] => false
  | n, x :: xs =>
    if x.cmd = dataHddFileEnd then
      n == size && xs.isEmpty
    else
      decide (x.cmd = dataHddFileData ∧ x.Full 16 ∧ x.offset = n) &&
        inOrder size (n + x.bytes.length) xs

/-- The packets are those of one complete transfer. -/
def complete : List Reading → Bool
  | [] => false
  | x :: xs => decide (x.cmd = dataHddFileStart ∧ x.Full 22) && inOrder x.size 0 xs

/-- Nobody cancels when the driver asks, which it does at each fourth packet, and each append
succeeds. There is a start packet in front of the data packets, and an end packet behind them. -/
def Undisturbed (s : Download) : Prop :=
  FirstGood (· = false) (((sent s).length - 1) / 4) s.cancels ∧
    FirstGood (· = none) ((sent s).length - 2) s.appends

/-- What has been asked for in a run, and what has been appended, have gone well. -/
def Calm (s s' : Download) : Prop :=
  TakenGood (· = false) s.cancels s'.cancels ∧ TakenGood (· = none) s.appends s'.appends

/-! ### The order of the packets -/

variable {size : Nat} {xs : List Reading}

theorem Carries.length_eq_succ {n : Nat} {file : List UInt8}
    (h : Carries size n xs file) : ∃ k, xs.length = k + 1 := by
  cases h with
  | finish _ => exact ⟨0, rfl⟩
  | @data _ xs _ _ _ _ _ _ => exact ⟨xs.length, rfl⟩

theorem inOrder_of_carries {n : Nat} {file : List UInt8}
    (h : Carries size n xs file) : inOrder size n xs = true := by
  induction h with
  | finish hend =>
    rw [inOrder, if_pos hend]
    simp
  | data hdata hfull hoffset _ ih =>
    have hmore : ¬ dataHddFileData = dataHddFileEnd := by decide
    rw [inOrder, if_neg (by rw [hdata]; exact hmore), ih, Bool.and_true]
    exact decide_eq_true ⟨hdata, hfull, hoffset⟩

theorem carries_of_inOrder {n : Nat} (h : inOrder size n xs = true) :
    ∃ file, Carries size n xs file := by
  induction xs generalizing n with
  | nil => cases h
  | cons x xs ih =>
    rw [inOrder] at h
    by_cases hend : x.cmd = dataHddFileEnd
    · rw [if_pos hend, Bool.and_eq_true, beq_iff_eq, List.isEmpty_iff] at h
      obtain ⟨rfl, rfl⟩ := h
      exact ⟨[], .finish hend⟩
    · rw [if_neg hend, Bool.and_eq_true, decide_eq_true_eq] at h
      obtain ⟨⟨hdata, hfull, hoffset⟩, hrest⟩ := h
      obtain ⟨file, hfile⟩ := ih hrest
      exact ⟨_, .data hdata hfull hoffset hfile⟩

theorem complete_iff (xs : List Reading) : complete xs = true ↔ ∃ file, CarriesFile xs file := by
  cases xs with
  | nil =>
    constructor
    · intro h
      cases h
    · rintro ⟨file, x, rest, h, -⟩
      cases h
  | cons x xs =>
    rw [complete, Bool.and_eq_true, decide_eq_true_eq]
    constructor
    · rintro ⟨⟨hstart, hfull⟩, hrest⟩
      obtain ⟨file, hfile⟩ := carries_of_inOrder hrest
      exact ⟨file, x, xs, rfl, hstart, hfull, hfile⟩
    · rintro ⟨file, y, rest, heq, hstart, hfull, hfile⟩
      cases heq
      exact ⟨⟨hstart, hfull⟩, inOrder_of_carries hfile⟩

/-! ### The loop -/

/-- The outcomes that are left are the last of those there were. -/
def Later (s s' : Download) : Prop := s'.cancels <:+ s.cancels ∧ s'.appends <:+ s.appends

instance : IsPreorder Download Later where
  refl _ := ⟨suffix_refl _, suffix_refl _⟩
  trans _ _ _ h h' := ⟨h'.1.trans h.1, h'.2.trans h.2⟩

/-- A computation uses up outcomes from the front. -/
abbrev Uses {α : Type} (m : Comp Download Int α) : Prop := Comp.Keeps (fun _ => True) Later m

theorem getPacket_uses : Uses getPacket := by
  intro s r s' _ h
  rw [getPacket] at h
  rcases hread : getTfPacket s.line with _ | ⟨_ | _, line⟩ <;> rw [hread] at h <;> cases h <;>
    exact ⟨trivial, suffix_refl _, suffix_refl _⟩

theorem askCancel_uses (update : Nat) : Uses (askCancel update) := by
  intro s r s' _ h
  rw [askCancel] at h
  by_cases hupdate : update ≠ 0
  · rw [if_pos hupdate] at h
    cases h
    exact ⟨trivial, suffix_refl _, suffix_refl _⟩
  · rw [if_neg hupdate] at h
    cases h
    exact ⟨trivial, List.tail_suffix _, suffix_refl _⟩

theorem append_uses (state : TransferState) (bytes : List UInt8) :
    Uses (append state bytes) := by
  intro s r s' _ h
  rw [append] at h
  rcases hfirst : s.appends.head?.join with _ | e <;> rw [hfirst] at h <;> cases h <;>
    exact ⟨trivial, suffix_refl _, List.tail_suffix _⟩

theorem onPacket_uses (update : Nat) (state : TransferState) (x : Reading) :
    Uses (onPacket update state x) := by
  refine .ite (fun _ => ?_) fun _ => ?_
  · exact .ite (fun _ => .pure _) fun _ => .pure _
  refine .ite (fun _ => ?_) fun _ => ?_
  · refine .ite (fun _ => ?_) fun _ => .pure _
    refine (askCancel_uses update).bind fun state => ?_
    refine .ite (fun _ => .stuck) fun _ => ?_
    exact (append_uses state x.bytes).bind fun _ => .pure _
  refine .ite (fun _ => .pure _) fun _ => ?_
  refine .ite (fun _ => .pure _) fun _ => ?_
  exact .ite (fun _ => .throw _) fun _ => .pure _

theorem receive_uses (fuel : Nat) (state : TransferState) (update : Nat) :
    Uses (receive fuel state update) := by
  induction fuel generalizing state update with
  | zero => exact .stuck
  | succ fuel ih =>
    refine getPacket_uses.bind fun result => ?_
    cases result with
    | error e => exact .throw _
    | ok x =>
      refine (onPacket_uses _ state x).bind fun next => ?_
      cases next with
      | none => exact .pure _
      | some state => exact ih state _

variable {update : Nat} {s s' : Download}

theorem receive_eq_ok {fuel : Nat} {state : TransferState}
    (h : receive fuel state update s = some (.ok (), s')) :
    ∃ n x line, fuel = n + 1 ∧
      readings fuel s.line = x :: readings n line ∧
      (onPacket ((update + 1) % 4) state x >>= fun next =>
        match next with
        | none => pure ()
        | some state => receive n state ((update + 1) % 4)) { s with line := line } =
        some (.ok (), s') := by
  cases fuel with
  | zero => cases h
  | succ n =>
    rw [receive, Comp.bind_eq_ok] at h
    obtain ⟨result, s₁, hread, h⟩ := h
    rw [getPacket] at hread
    rcases hline : getTfPacket s.line with _ | ⟨e | r, line⟩ <;> rw [hline] at hread <;>
      cases hread
    · cases h
    · exact ⟨n, _, line, rfl, by rw [readings, hline], h⟩

/-- What a data packet asks for goes well: the user does not cancel, and the append succeeds. -/
def HeadsGood (update : Nat) (s : Download) : Prop :=
  (update = 0 → ∀ a, s.cancels.head? = some a → a = false) ∧
    ∀ a, s.appends.head? = some a → a = none

/-- What is left of the outcomes behind a data packet. -/
def behind (update : Nat) (s : Download) : List Bool × List (Option Int) :=
  (if update = 0 then s.cancels.tail else s.cancels, s.appends.tail)

/-- A data packet during a transfer: its bytes are appended, or the transfer is aborted. -/
theorem onPacket_data {x : Reading}
    {next : Option TransferState} (hdata : x.cmd = dataHddFileData)
    (h : onPacket update .data x s = some (.ok next, s')) :
    s'.line = s.line ∧ (s'.cancels, s'.appends) = behind update s ∧
      ((next = some .data ∧ HeadsGood update s ∧ s'.file = s.file ++ x.bytes) ∨
        (next = some .abort ∧ ¬ HeadsGood update s)) := by
  have hnostart : ¬ x.cmd = dataHddFileStart := by
    rw [hdata]
    decide
  rw [onPacket, if_neg hnostart, if_pos hdata, if_pos rfl, Comp.bind_eq_ok] at h
  obtain ⟨state, s₁, hask, h⟩ := h
  by_cases hlong : packetHeadSize + 8 + x.dataLen > maximumPacketSize
  · rw [if_pos hlong] at h
    cases h
  rw [if_neg hlong, Comp.bind_eq_ok] at h
  obtain ⟨state', s₂, happend, h⟩ := h
  cases h
  -- the append, from the state behind the question
  have hfile : s'.line = s₁.line ∧ s'.cancels = s₁.cancels ∧ s'.appends = s₁.appends.tail ∧
      ((s₁.appends.head?.join = none ∧ state' = state ∧ s'.file = s₁.file ++ x.bytes) ∨
        (s₁.appends.head?.join ≠ none ∧ state' = .abort)) := by
    rw [append] at happend
    rcases hfirst : s₁.appends.head?.join with _ | e <;> rw [hfirst] at happend <;> cases happend
    · exact ⟨rfl, rfl, rfl, Or.inl ⟨rfl, rfl, rfl⟩⟩
    · exact ⟨rfl, rfl, rfl, Or.inr ⟨by simp, rfl⟩⟩
  -- the question, at every fourth packet
  have hask' : s₁.line = s.line ∧ s₁.appends = s.appends ∧ s₁.file = s.file ∧
      s₁.cancels = (if update = 0 then s.cancels.tail else s.cancels) ∧
      ((state = .data ∧ (update = 0 → s.cancels.head? ≠ some true)) ∨
        (state = .abort ∧ update = 0 ∧ s.cancels.head? = some true)) := by
    rw [askCancel] at hask
    by_cases hupdate : update = 0
    · rw [if_neg (not_not.mpr hupdate)] at hask
      by_cases htrue : s.cancels.head? = some true
      · rw [if_pos htrue] at hask
        cases hask
        exact ⟨rfl, rfl, rfl, by rw [if_pos hupdate], Or.inr ⟨rfl, hupdate, htrue⟩⟩
      · rw [if_neg htrue] at hask
        cases hask
        exact ⟨rfl, rfl, rfl, by rw [if_pos hupdate], Or.inl ⟨rfl, fun _ => htrue⟩⟩
    · rw [if_pos hupdate] at hask
      cases hask
      exact ⟨rfl, rfl, rfl, by rw [if_neg hupdate], Or.inl ⟨rfl, fun h0 => absurd h0 hupdate⟩⟩
  obtain ⟨hline₁, happends₁, hfile₁, hcancels₁, hstate⟩ := hask'
  obtain ⟨hline, hcancels, happends, hstate'⟩ := hfile
  rw [happends₁] at happends hstate'
  refine ⟨hline.trans hline₁, ?_, ?_⟩
  · rw [behind, hcancels, hcancels₁, happends]
  have hgood : HeadsGood update s ↔
      (update = 0 → s.cancels.head? ≠ some true) ∧ s.appends.head?.join = none := by
    rw [HeadsGood]
    refine and_congr (forall_congr' fun _ => ?_) ?_
    · rcases s.cancels.head? with _ | _ | _ <;> simp
    · rcases s.appends.head? with _ | _ | _ <;> simp
  rw [hgood]
  rcases hstate' with ⟨hnone, rfl, happended⟩ | ⟨hfails, rfl⟩
  · rcases hstate with ⟨rfl, hcalm⟩ | ⟨rfl, hupdate, htrue⟩
    · exact Or.inl ⟨rfl, ⟨hcalm, hnone⟩, by rw [happended, hfile₁]⟩
    · exact Or.inr ⟨rfl, fun hboth => hboth.1 hupdate htrue⟩
  · exact Or.inr ⟨rfl, fun hboth => hfails hboth.2⟩

/-- A run is calm when its first data packet is, and what comes behind it. -/
theorem calm_step {s₁ : Download}
    (hbehind : (s₁.cancels, s₁.appends) = behind update s) (hlater : Later s₁ s') :
    Calm s s' ↔ HeadsGood update s ∧ Calm s₁ s' := by
  obtain ⟨hcancels, happends⟩ := Prod.mk.inj hbehind
  have hleft : s'.appends <:+ s.appends.tail := by
    rw [← happends]
    exact hlater.2
  rw [Calm, Calm, HeadsGood, happends, @takenGood_tail _ (· = none) _ _ hleft]
  by_cases hupdate : update = 0
  · rw [if_pos hupdate] at hcancels
    have hleft' : s'.cancels <:+ s.cancels.tail := by
      rw [← hcancels]
      exact hlater.1
    rw [hcancels, @takenGood_tail _ (· = false) _ _ hleft']
    constructor
    · rintro ⟨⟨hhead, htail⟩, hhead', htail'⟩
      exact ⟨⟨fun _ => hhead, hhead'⟩, htail, htail'⟩
    · rintro ⟨⟨hhead, hhead'⟩, htail, htail'⟩
      exact ⟨⟨hhead hupdate, htail⟩, hhead', htail'⟩
  · rw [if_neg hupdate] at hcancels
    rw [hcancels]
    constructor
    · rintro ⟨hcalm, hhead', htail'⟩
      exact ⟨⟨fun h0 => absurd h0 hupdate, hhead'⟩, hcalm, htail'⟩
    · rintro ⟨⟨-, hhead'⟩, hcalm, htail'⟩
      exact ⟨hcalm, hhead', htail'⟩

/-- The outcomes for the data packets are those for the first one and for the others. -/
theorem firstGood_step {k : Nat} (hupdate : update < 4) {s₁ : Download}
    (hbehind : (s₁.cancels, s₁.appends) = behind ((update + 1) % 4) s) :
    (FirstGood (· = false) ((update + (k + 1)) / 4) s.cancels ∧
        FirstGood (· = none) (k + 1) s.appends) ↔
      HeadsGood ((update + 1) % 4) s ∧
        FirstGood (· = false) (((update + 1) % 4 + k) / 4) s₁.cancels ∧
          FirstGood (· = none) k s₁.appends := by
  obtain ⟨hcancels, happends⟩ := Prod.mk.inj hbehind
  rw [HeadsGood, happends, firstGood_succ k]
  by_cases hasked : (update + 1) % 4 = 0
  · rw [if_pos hasked] at hcancels
    have hcount : (update + (k + 1)) / 4 = ((update + 1) % 4 + k) / 4 + 1 := by omega
    rw [hcancels, hcount, firstGood_succ]
    constructor
    · rintro ⟨⟨hhead, htail⟩, hhead', htail'⟩
      exact ⟨⟨fun _ => hhead, hhead'⟩, htail, htail'⟩
    · rintro ⟨⟨hhead, hhead'⟩, htail, htail'⟩
      exact ⟨⟨hhead hasked, htail⟩, hhead', htail'⟩
  · rw [if_neg hasked] at hcancels
    have hcount : (update + (k + 1)) / 4 = ((update + 1) % 4 + k) / 4 := by omega
    rw [hcancels, hcount]
    constructor
    · rintro ⟨hcalm, hhead', htail'⟩
      exact ⟨⟨fun h0 => absurd h0 hasked, hhead'⟩, hcalm, htail'⟩
    · rintro ⟨⟨-, hhead'⟩, hcalm, htail'⟩
      exact ⟨hcalm, hhead', htail'⟩

theorem untilEnd_cons {x y : Reading} {ys : List Reading} (h : untilEnd (x :: xs) = y :: ys) :
    x = y ∧ (x.cmd = dataHddFileEnd → ys = []) ∧
      (x.cmd ≠ dataHddFileEnd → untilEnd xs = ys) := by
  rw [untilEnd] at h
  by_cases hend : x.cmd = dataHddFileEnd
  · rw [if_pos hend] at h
    cases h
    exact ⟨rfl, fun _ => rfl, fun hmore => absurd hend hmore⟩
  · rw [if_neg hend] at h
    cases h
    exact ⟨rfl, fun h0 => absurd h0 hend, fun _ => rfl⟩

/-- From the start packet on: where the packets carry the rest of the file, nothing has disturbed
the transfer just when all outcomes for its data packets are good, and then the file has it. -/
theorem receive_data {n : Nat} {file : List UInt8}
    (hcarries : Carries size n xs file) {fuel : Nat}
    (hupdate : update < 4) (hxs : untilEnd (readings fuel s.line) = xs)
    (h : receive fuel .data update s = some (.ok (), s')) :
    (Calm s s' ↔ FirstGood (· = false) ((update + (xs.length - 1)) / 4) s.cancels ∧
        FirstGood (· = none) (xs.length - 1) s.appends) ∧
      (Calm s s' → s'.file = s.file ++ file) := by
  induction hcarries generalizing fuel update s with
  | @finish x hend =>
    obtain ⟨m, y, line, rfl, hreadings, hrun⟩ := receive_eq_ok h
    rw [hreadings] at hxs
    obtain ⟨rfl, -, -⟩ := untilEnd_cons hxs
    rw [onPacket, if_neg (by rw [hend]; decide), if_neg (by rw [hend]; decide), if_pos hend] at hrun
    cases hrun
    have hcalm : Calm s { s with line := line } := ⟨takenGood_self _, takenGood_self _⟩
    have hnone : (update + ([y].length - 1)) / 4 = 0 := by
      rw [List.length_singleton]
      omega
    rw [hnone]
    exact ⟨iff_of_true hcalm ⟨firstGood_zero _, firstGood_zero _⟩,
      fun _ => (List.append_nil _).symm⟩
  | @data x xs n file hdata hfull hoffset hrest ih =>
    obtain ⟨m, y, line, rfl, hreadings, hrun⟩ := receive_eq_ok h
    rw [hreadings] at hxs
    obtain ⟨rfl, -, hmore⟩ := untilEnd_cons hxs
    have hxs' := hmore (by rw [hdata]; decide)
    obtain ⟨k, hk⟩ := hrest.length_eq_succ
    have hcount : (y :: xs).length - 1 = k + 1 := by
      rw [List.length_cons, hk]
      rfl
    rw [hcount]
    rw [Comp.bind_eq_ok] at hrun
    obtain ⟨next, s₁, hpacket, hrun⟩ := hrun
    obtain ⟨hline, hbehind, hnext⟩ := onPacket_data hdata hpacket
    have hline₁ : s₁.line = line := hline
    have hbehind₁ : (s₁.cancels, s₁.appends) = behind ((update + 1) % 4) s := hbehind
    have hheads : HeadsGood ((update + 1) % 4) { s with line := line } ↔
        HeadsGood ((update + 1) % 4) s := Iff.rfl
    rw [firstGood_step hupdate hbehind₁]
    rcases hnext with ⟨rfl, hgood, hfile⟩ | ⟨rfl, hbad⟩
    · have hlater : Later s₁ s' := (receive_uses m .data _ s₁ _ s' trivial hrun).2
      rw [calm_step hbehind₁ hlater]
      have htail := ih (Nat.mod_lt _ (by decide)) (by rw [hline₁, hxs']) hrun
      rw [hk] at htail
      obtain ⟨hiff, hdone⟩ := htail
      refine ⟨and_congr_right fun _ => hiff, fun hcalm => ?_⟩
      rw [hdone hcalm.2, hfile, List.append_assoc]
    · have hlater : Later s₁ s' := (receive_uses m .abort _ s₁ _ s' trivial hrun).2
      rw [calm_step hbehind₁ hlater]
      exact ⟨iff_of_false (fun hcalm => hbad hcalm.1) fun hgood => hbad hgood.1,
        fun hcalm => absurd hcalm.1 hbad⟩

/-- **What a download comes to.** A download that succeeds has received the announced file, all of
it and in order and from packets that were received in full, and nothing has gone wrong on the way,
just when the recorder has sent the packets of one complete transfer, and none of the questions and
appends for them goes wrong. -/
theorem getFileFunc_complete_iff (s s' : Download)
    (h : getFileFunc true true s = some (.ok (), s')) :
    ((∃ file, CarriesFile (sent s) file ∧ s'.file = s.file ++ file) ∧ Calm s s') ↔
      complete (sent s) = true ∧ Undisturbed s := by
  rw [getFileFunc, if_neg (by decide), if_neg (by decide), Comp.get_bind_run] at h
  -- both sides ask for a complete transfer
  have hcarried : ∀ file, CarriesFile (sent s) file →
      (Calm s s' ↔ Undisturbed s) ∧ (Calm s s' → s'.file = s.file ++ file) := by
    intro file hfile
    obtain ⟨x, rest, hsent, hstart, -, hcarries⟩ := hfile
    obtain ⟨m, y, line, hm, hreadings, hrun⟩ := receive_eq_ok h
    have hxs : untilEnd (readings (s.line.answers.length + 1) s.line) = x :: rest := hsent
    rw [hreadings] at hxs
    obtain ⟨rfl, -, hmore⟩ := untilEnd_cons hxs
    have hrest := hmore (by rw [hstart]; decide)
    rw [onPacket, if_pos hstart, if_pos rfl] at hrun
    have hrun' : receive m .data 1 { s with line := line } = some (.ok (), s') := hrun
    obtain ⟨k, hk⟩ := hcarries.length_eq_succ
    obtain ⟨hiff, hdone⟩ := receive_data hcarries (by decide) hrest hrun'
    have hcount : (sent s).length = k + 2 := by
      rw [hsent, List.length_cons, hk]
    refine ⟨?_, hdone⟩
    rw [Undisturbed, hcount]
    rw [hk] at hiff
    have hasked : (k + 2 - 1) / 4 = (1 + (k + 1 - 1)) / 4 := by omega
    rw [hasked]
    exact hiff
  rw [complete_iff]
  constructor
  · rintro ⟨⟨file, hfile, -⟩, hcalm⟩
    exact ⟨⟨file, hfile⟩, (hcarried file hfile).1.mp hcalm⟩
  · rintro ⟨⟨file, hfile⟩, hundisturbed⟩
    have hcalm := (hcarried file hfile).1.mpr hundisturbed
    exact ⟨⟨file, hfile, (hcarried file hfile).2 hcalm⟩, hcalm⟩

/-- A download in front of these packets, that nobody cancels. -/
def recorderSends (packets : List (List UInt8)) : Download where
  line    := { packet := List.replicate maximumPacketSize 0, answers := packets.map .ok }
  cancels := []
  appends := []
  file    := []

/-- A start packet for a file of two bytes, as it is on the wire. -/
def startPacket : List UInt8 :=
  [0x7a, 0, 0, 0, 0, 0, 0x09, 0x10] ++ List.replicate 12 0 ++ [2, 0] ++ List.replicate 100 0

/-- A data packet with the bytes `A` and `B`. -/
def dataPacket : List UInt8 :=
  [0x12, 0, 0, 0, 0, 0, 0x0a, 0x10, 0, 0, 0, 0, 0, 0, 0, 0, 0x42, 0x41]

def endPacket : List UInt8 := [0x08, 0, 0, 0, 0, 0, 0x0b, 0x10]

theorem getFileFunc_small :
    ∃ s', getFileFunc true true (recorderSends [startPacket, dataPacket, endPacket]) =
      some (.ok (), s') ∧ s'.file = [0x41, 0x42] := by
  have hrun : (getFileFunc true true (recorderSends [startPacket, dataPacket, endPacket])).map
      (fun outcome => (outcome.1, outcome.2.file)) = some (.ok (), [0x41, 0x42]) := by
    decide +kernel
  obtain ⟨outcome, houtcome, heq⟩ := Option.map_eq_some_iff.mp hrun
  obtain ⟨hok, hfile⟩ := Prod.mk.inj heq
  exact ⟨outcome.2, by rw [houtcome, ← hok], hfile⟩

theorem getFileFunc_complete_small :
    ∃ s', ((∃ file, CarriesFile (sent (recorderSends [startPacket, dataPacket, endPacket])) file ∧
          s'.file = (recorderSends [startPacket, dataPacket, endPacket]).file ++ file) ∧
        Calm (recorderSends [startPacket, dataPacket, endPacket]) s') ↔
      complete (sent (recorderSends [startPacket, dataPacket, endPacket])) = true ∧
        Undisturbed (recorderSends [startPacket, dataPacket, endPacket]) := by
  obtain ⟨s', hrun, -⟩ := getFileFunc_small
  exact ⟨s', getFileFunc_complete_iff _ s' hrun⟩

/-- An end packet alone makes a download that succeeds. -/
theorem end_alone_succeeds :
    (getFileFunc true true (recorderSends [endPacket])).map
        (fun outcome => (outcome.1, outcome.2.file)) = some (.ok (), []) ∧
      (sent (recorderSends [endPacket])).map Reading.cmd = [dataHddFileEnd] := by
  decide +kernel

end GPhoto2.Topfield
