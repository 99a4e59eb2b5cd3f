import Mathlib.Data.List.Basic

/-!
# UTF-8

The encoder, and the decoder as a machine that reads one byte at a time and replaces what is
not well formed: each maximal part of a sequence that cannot be continued becomes one
U+FFFD.  `feed` keeps the machine's state between pieces of the input, so where the input
is cut does not matter (`feed_append`), and it reads back what the encoder wrote
(`feed_encode`).
-/

namespace Intellivault.Lib.Utf8

/-! ## Encoding -/

def encodeChar (c : Char) : List UInt8 :=
  let v := c.toNat
  if v < 0x80 then [.ofNat v]
  else if v < 0x800 then [.ofNat (0xC0 + v / 64), .ofNat (0x80 + v % 64)]
  else if v < 0x10000 then
    [.ofNat (0xE0 + v / 4096), .ofNat (0x80 + v / 64 % 64), .ofNat (0x80 + v % 64)]
  else
    [.ofNat (0xF0 + v / 262144), .ofNat (0x80 + v / 4096 % 64), .ofNat (0x80 + v / 64 % 64),
      .ofNat (0x80 + v % 64)]

def encode (cs : List Char) : List UInt8 := cs.flatMap encodeChar

/-! ## Decoding -/

/-- Inside a sequence: what its bytes gave so far, how many are missing, and the bounds of
the next one. -/
structure State where
  codePoint : Nat
  missing : Nat
  lower : Nat
  upper : Nat
deriving DecidableEq

/-- Between two sequences. -/
def State.start : State := ⟨0, 0, 0x80, 0xBF⟩

def replacement : Char := Char.ofNat 0xFFFD

/-- The first byte of a sequence. -/
def lead (n : Nat) : State × List Char :=
  if n < 0x80 then (.start, [Char.ofNat n])
  else if 0xC2 ≤ n ∧ n ≤ 0xDF then (⟨n - 0xC0, 1, 0x80, 0xBF⟩, [])
  else if 0xE0 ≤ n ∧ n ≤ 0xEF then
    (⟨n - 0xE0, 2, if n = 0xE0 then 0xA0 else 0x80, if n = 0xED then 0x9F else 0xBF⟩, [])
  else if 0xF0 ≤ n ∧ n ≤ 0xF4 then
    (⟨n - 0xF0, 3, if n = 0xF0 then 0x90 else 0x80, if n = 0xF4 then 0x8F else 0xBF⟩, [])
  else (.start, [replacement])

/-- One byte; one that does not continue the sequence is read as the first of the next. -/
def step (st : State) (b : UInt8) : State × List Char :=
  let n := b.toNat
  if st.missing = 0 then lead n
  else if st.lower ≤ n ∧ n ≤ st.upper then
    let codePoint := st.codePoint * 64 + (n - 0x80)
    if st.missing = 1 then (.start, [Char.ofNat codePoint])
    else (⟨codePoint, st.missing - 1, 0x80, 0xBF⟩, [])
  else
    let (st, cs) := lead n
    (st, replacement :: cs)

/-- Some more bytes. -/
def feed (st : State) : List UInt8 → State × List Char
  | [] => (st, [])
  | b :: bs =>
      let (st, cs) := step st b
      let (st, rest) := feed st bs
      (st, cs ++ rest)

/-- The end of the input inside a sequence. -/
def flush (st : State) : List Char := if st.missing = 0 then [] else [replacement]

/-- A whole input. -/
def decode (bs : List UInt8) : List Char :=
  let (st, cs) := feed .start bs
  cs ++ flush st

/-! ## Round trip -/

theorem feed_append (st : State) (xs ys : List UInt8) :
    feed st (xs ++ ys) =
      ((feed (feed st xs).1 ys).1, (feed st xs).2 ++ (feed (feed st xs).1 ys).2) := by
  induction xs generalizing st with
  | nil => rfl
  | cons b xs ih => simp only [List.cons_append, feed, ih, List.append_assoc]

theorem toNat_ofNat_lt {n : Nat} (small : n < 256) : (UInt8.ofNat n).toNat = n := by
  simp [Nat.mod_eq_of_lt small]

/-- A byte that continues a sequence but does not end it. -/
theorem step_continue {st : State} {n : Nat} (more : 1 < st.missing) (above : st.lower ≤ n)
    (below : n ≤ st.upper) (small : n < 256) :
    step st (.ofNat n) = (⟨st.codePoint * 64 + (n - 0x80), st.missing - 1, 0x80, 0xBF⟩, []) := by
  rw [step, toNat_ofNat_lt small, if_neg (by omega), if_pos ⟨above, below⟩, if_neg (by omega)]

/-- A byte that ends a sequence. -/
theorem step_last {st : State} {n : Nat} (last : st.missing = 1) (above : st.lower ≤ n)
    (below : n ≤ st.upper) (small : n < 256) :
    step st (.ofNat n) = (.start, [Char.ofNat (st.codePoint * 64 + (n - 0x80))]) := by
  rw [step, toNat_ofNat_lt small, if_neg (by omega), if_pos ⟨above, below⟩, if_pos last]

theorem step_start {n : Nat} (small : n < 256) : step .start (.ofNat n) = lead n := by
  rw [step, toNat_ofNat_lt small]
  rfl

/-- One byte missing. -/
theorem feed_one {st : State} {n : Nat} (last : st.missing = 1) (above : st.lower ≤ n)
    (below : n ≤ st.upper) (small : n < 256) :
    feed st [.ofNat n] = (.start, [Char.ofNat (st.codePoint * 64 + (n - 0x80))]) := by
  rw [feed, step_last last above below small]
  rfl

/-- Two bytes missing. -/
theorem feed_two {st : State} {n m : Nat} (two : st.missing = 2) (above : st.lower ≤ n)
    (below : n ≤ st.upper) (small : n < 256) (hm : m < 64) :
    feed st [.ofNat n, .ofNat (0x80 + m)] =
      (.start, [Char.ofNat ((st.codePoint * 64 + (n - 0x80)) * 64 + m)]) := by
  have rest : feed ⟨st.codePoint * 64 + (n - 0x80), st.missing - 1, 0x80, 0xBF⟩
      [.ofNat (0x80 + m)] =
        (.start, [Char.ofNat ((st.codePoint * 64 + (n - 0x80)) * 64 + (0x80 + m - 0x80))]) :=
    feed_one (by dsimp only; omega) (by dsimp only; omega) (by dsimp only; omega) (by omega)
  rw [feed, step_continue (by omega) above below small]
  dsimp only
  rw [rest, Nat.add_sub_cancel_left]
  rfl

/-- Three bytes missing. -/
theorem feed_three {st : State} {n m l : Nat} (three : st.missing = 3) (above : st.lower ≤ n)
    (below : n ≤ st.upper) (small : n < 256) (hm : m < 64) (hl : l < 64) :
    feed st [.ofNat n, .ofNat (0x80 + m), .ofNat (0x80 + l)] =
      (.start, [Char.ofNat (((st.codePoint * 64 + (n - 0x80)) * 64 + m) * 64 + l)]) := by
  have rest : feed ⟨st.codePoint * 64 + (n - 0x80), st.missing - 1, 0x80, 0xBF⟩
      [.ofNat (0x80 + m), .ofNat (0x80 + l)] = (.start, [Char.ofNat
        (((st.codePoint * 64 + (n - 0x80)) * 64 + (0x80 + m - 0x80)) * 64 + l)]) :=
    feed_two (by dsimp only; omega) (by dsimp only; omega) (by dsimp only; omega) (by omega) hl
  rw [feed, step_continue (by omega) above below small]
  dsimp only
  rw [rest, Nat.add_sub_cancel_left]
  rfl

theorem lead_two {d : Nat} (low : 2 ≤ d) (high : d < 32) :
    lead (0xC0 + d) = (⟨d, 1, 0x80, 0xBF⟩, []) := by
  rw [lead, if_neg (by omega), if_pos (by omega), Nat.add_sub_cancel_left]

theorem lead_three {d : Nat} (high : d < 16) :
    lead (0xE0 + d) = (⟨d, 2, if d = 0 then 0xA0 else 0x80, if d = 13 then 0x9F else 0xBF⟩, []) := by
  rw [lead, if_neg (by omega), if_neg (by omega), if_pos (by omega), Nat.add_sub_cancel_left]
  simp only [show 0xE0 + d = 0xE0 ↔ d = 0 by omega, show 0xE0 + d = 0xED ↔ d = 13 by omega]

theorem lead_four {d : Nat} (high : d < 5) :
    lead (0xF0 + d) = (⟨d, 3, if d = 0 then 0x90 else 0x80, if d = 4 then 0x8F else 0xBF⟩, []) := by
  rw [lead, if_neg (by omega), if_neg (by omega), if_neg (by omega), if_pos (by omega),
    Nat.add_sub_cancel_left]
  simp only [show 0xF0 + d = 0xF0 ↔ d = 0 by omega, show 0xF0 + d = 0xF4 ↔ d = 4 by omega]

theorem feed_lead {n : Nat} {st : State} {bs : List UInt8} (small : n < 256)
    (first : lead n = (st, [])) : feed .start (.ofNat n :: bs) = feed st bs := by
  rw [feed, step_start small, first]
  rfl

theorem Char.toNat_valid (c : Char) : c.toNat < 0xD800 ∨ 0xDFFF < c.toNat ∧ c.toNat < 0x110000 :=
  c.valid

/-- The machine reads one character. -/
theorem feed_encodeChar (c : Char) : feed .start (encodeChar c) = (.start, [c]) := by
  have valid := Char.toNat_valid c
  generalize hv : c.toNat = v at valid
  have back : Char.ofNat v = c := by rw [← hv, Char.ofNat_toNat]
  rw [encodeChar, hv]
  split
  · rename_i one
    rw [feed, step_start (by omega), lead, if_pos one, back]
    rfl
  split
  · rename_i two
    rw [feed_lead (by omega) (lead_two (by omega) (by omega)),
      feed_one rfl (by dsimp only; omega) (by dsimp only; omega) (by omega)]
    dsimp only
    rw [show v / 64 * 64 + (0x80 + v % 64 - 0x80) = v by omega, back]
  split
  · rename_i three
    -- The bounds of the second byte keep out overlong forms and surrogates.
    rw [feed_lead (by omega) (lead_three (by omega)), feed_two rfl
      (by dsimp only; split <;> omega) (by dsimp only; split <;> omega) (by omega) (by omega)]
    dsimp only
    rw [show (v / 4096 * 64 + (0x80 + v / 64 % 64 - 0x80)) * 64 + v % 64 = v by omega, back]
  · -- ... and here overlong forms and what is beyond the last code point.
    rw [feed_lead (by omega) (lead_four (by omega)), feed_three rfl
      (by dsimp only; split <;> omega) (by dsimp only; split <;> omega) (by omega) (by omega)
      (by omega)]
    dsimp only
    rw [show ((v / 262144 * 64 + (0x80 + v / 4096 % 64 - 0x80)) * 64 + v / 64 % 64) * 64 + v % 64 =
      v by omega, back]

theorem feed_encode (cs : List Char) : feed .start (encode cs) = (.start, cs) := by
  induction cs with
  | nil => rfl
  | cons c cs ih =>
      rw [encode, List.flatMap_cons, feed_append, feed_encodeChar]
      dsimp only
      rw [← encode, ih]
      rfl

theorem encode_append (xs ys : List Char) : encode (xs ++ ys) = encode xs ++ encode ys :=
  List.flatMap_append

end Intellivault.Lib.Utf8
