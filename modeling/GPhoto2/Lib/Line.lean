import GPhoto2.Lib.Outcome

/-!
# `GPhoto2.Lib.Line`: a serial line

What has still to come from the other side, and what has been written to it. A read delivers as many
bytes as it asks for; where there are fewer, it waits for more until the time is over, and the bytes
that did come are lost. Writes do not fail.
-/

set_option autoImplicit false

namespace GPhoto2.Lib

structure Line (β : Type) where
  incoming : List β
  written : List β := []

namespace Line

variable {β ε : Type}

/-- Read `n` bytes, or fail with `timeout`. -/
def read (timeout : ε) (n : Nat) : Comp (Line β) ε (List β) := fun s =>
  if n ≤ s.incoming.length then
    some (.ok (s.incoming.take n), { s with incoming := s.incoming.drop n })
  else
    some (.error timeout, { s with incoming := [] })

def write (bytes : List β) : Comp (Line β) ε Unit :=
  Comp.modify fun s => { s with written := s.written ++ bytes }

theorem read_run (timeout : ε) {n : Nat} {bytes : List β} (h : bytes.length = n)
    (rest written : List β) :
    read timeout n ⟨bytes ++ rest, written⟩ = some (.ok bytes, ⟨rest, written⟩) := by
  subst h
  simp [read]

theorem read_one (timeout : ε) (b : β) (rest written : List β) :
    read timeout 1 ⟨b :: rest, written⟩ = some (.ok [b], ⟨rest, written⟩) :=
  @read_run β ε timeout 1 [b] rfl rest written

/-- What a read returns is the beginning of what was to come. -/
theorem read_ok {timeout : ε} {n : Nat} {s s' : Line β} {bytes : List β}
    (h : read timeout n s = some (.ok bytes, s')) :
    bytes.length = n ∧ s.incoming = bytes ++ s'.incoming ∧ s'.written = s.written := by
  by_cases hn : n ≤ s.incoming.length
  · rw [read, if_pos hn] at h
    cases h
    exact ⟨List.length_take_of_le hn, (List.take_append_drop n _).symm, rfl⟩
  · rw [read, if_neg hn] at h
    cases h

/-- What a computation writes to a new line. -/
def sent (m : Comp (Line β) ε Unit) : List β :=
  match m ⟨[], []⟩ with
  | some (_, s) => s.written
  | none => []

theorem sent_eq {m : Comp (Line β) ε Unit} {r : Except ε Unit} {s : Line β}
    (h : m ⟨[], []⟩ = some (r, s)) : sent m = s.written := by
  rw [sent, h]

end Line

/-! ## Bytes that travel behind an escape

A serial protocol marks its packets with bytes that the data may hold as well. It puts an escape in
front of such a byte, and may change the byte itself. `stuff` is what the sender makes of the data.

A receiver that knows how many bytes of data there are reads as many from the line, takes the
escapes out and reads what is missing. Where such a read ends is settled by `stuff_cut`: between two
bytes of the data, or behind the escape of one.
-/

/-- An escape, the bytes that need it, and what becomes of a byte behind it. -/
structure Stuffing (β : Type) where
  esc : β
  special : β → Bool
  flip : β → β
  special_esc : special esc = true
  flip_flip : ∀ b, flip (flip b) = b

namespace Stuffing

/-- The bytes behind an escape may be the bytes themselves. -/
theorem id_flip {β : Type} (b : β) : id (id b) = b := rfl

variable {β : Type} (code : Stuffing β)

/-- What is sent for a byte. -/
def stuffByte (b : β) : List β := if code.special b then [code.esc, code.flip b] else [b]

/-- What is sent for the data. -/
def stuff (bytes : List β) : List β := bytes.flatMap code.stuffByte

theorem stuffByte_special {b : β} (h : code.special b = true) :
    code.stuffByte b = [code.esc, code.flip b] := if_pos h

theorem stuffByte_plain {b : β} (h : code.special b = false) : code.stuffByte b = [b] :=
  if_neg (by simp [h])

@[simp] theorem stuff_nil : code.stuff [] = [] := rfl

@[simp] theorem stuff_cons (b : β) (bytes : List β) :
    code.stuff (b :: bytes) = code.stuffByte b ++ code.stuff bytes := List.flatMap_cons

theorem stuff_append (xs ys : List β) : code.stuff (xs ++ ys) = code.stuff xs ++ code.stuff ys :=
  List.flatMap_append

/-- Data without a special byte are sent as they are. -/
theorem stuff_plain {bytes : List β} (h : ∀ b ∈ bytes, code.special b = false) :
    code.stuff bytes = bytes := by
  induction bytes with
  | nil => rfl
  | cons b bytes ih =>
    rw [stuff_cons, code.stuffByte_plain (h b (by simp)), ih fun c hc => h c (by simp [hc])]
    rfl

/-- Every special byte makes the data one byte longer. -/
theorem length_stuff (bytes : List β) :
    (code.stuff bytes).length = bytes.length + bytes.countP code.special := by
  induction bytes with
  | nil => rfl
  | cons b bytes ih =>
    rw [stuff_cons, List.length_append, ih, List.countP_cons, List.length_cons]
    cases hb : code.special b with
    | false =>
      rw [code.stuffByte_plain hb]
      simp
      omega
    | true =>
      rw [code.stuffByte_special hb]
      simp
      omega

theorem length_le_length_stuff (bytes : List β) : bytes.length ≤ (code.stuff bytes).length := by
  rw [length_stuff]
  omega

/-- Where a read of some of the bytes that are sent ends. -/
inductive Cut (bytes read rest : List β) : Prop
  /-- Between two bytes of the data. -/
  | between (done left : List β) (data : bytes = done ++ left) (before : read = code.stuff done)
      (behind : rest = code.stuff left)
  /-- Behind the escape of a byte. -/
  | escape (done : List β) (b : β) (left : List β) (data : bytes = done ++ b :: left)
      (special : code.special b = true) (before : read = code.stuff done ++ [code.esc])
      (behind : rest = code.flip b :: code.stuff left)

theorem stuff_cut {bytes read rest : List β} (h : code.stuff bytes = read ++ rest) :
    code.Cut bytes read rest := by
  induction bytes generalizing read with
  | nil =>
    obtain ⟨hread, hrest⟩ := List.append_eq_nil_iff.mp h.symm
    exact .between [] [] rfl hread hrest
  | cons b bytes ih =>
    cases read with
    | nil => exact .between [] (b :: bytes) rfl rfl h.symm
    | cons c read =>
      rw [stuff_cons] at h
      -- the rest of the cut, once the bytes that are sent for `b` are read
      have hcons : ∀ front : List β, c :: read = code.stuffByte b ++ front →
          code.stuff bytes = front ++ rest → code.Cut (b :: bytes) (c :: read) rest := by
        intro front hfront hbytes
        cases ih hbytes with
        | between done left data before behind =>
          refine .between (b :: done) left (by rw [data]; rfl) ?_ behind
          rw [hfront, before, stuff_cons]
        | escape done d left data special before behind =>
          refine .escape (b :: done) d left (by rw [data]; rfl) special ?_ behind
          rw [hfront, before, stuff_cons, List.append_assoc]
      cases hb : code.special b with
      | false =>
        rw [code.stuffByte_plain hb] at h hcons
        injection h with hc htail
        exact hcons read (by rw [hc]; rfl) htail
      | true =>
        rw [code.stuffByte_special hb] at h hcons
        injection h with hc htail
        subst hc
        cases read with
        | nil => exact .escape [] b bytes rfl hb rfl htail.symm
        | cons d read =>
          injection htail with hd htail
          subst hd
          exact hcons read rfl htail

end Stuffing

end GPhoto2.Lib
