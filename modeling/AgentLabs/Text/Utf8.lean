import Mathlib.Data.Nat.Notation
import Mathlib.Tactic.SplitIfs

/-!
# Decoding UTF-8 with replacements

A byte is the first one of a character, or the next one of the character that is pending. Bytes that
are neither do not stop the decoding: a replacement character stands for each longest beginning of a
character that does not go on, and for each byte that begins none.

Different bytes can so have one text. Encoded texts are told apart, as each is decoded to what it
was.

## Main definitions

* `decodeUtf8`: the text of some bytes

## Main results

* `decodeUtf8_encode`: the text that was encoded
-/

namespace AgentLabs.Text

/-- A character whose first bytes are there: their value, how many bytes are missing, and the range
of the next one. -/
structure Pending where
  value : ℕ
  missing : ℕ
  low : ℕ := 0x80
  high : ℕ := 0xBF

/-- What a byte begins. -/
inductive Lead where
  | char (c : Char)
  | pending (p : Pending)
  | invalid

/-- What a byte begins, given its value. After some bytes only a part of the range is of use: the
rest would spell a character that has shorter bytes, half of a pair or no code point. -/
def lead (b : ℕ) : Lead :=
  if b < 0x80 then .char (Char.ofNat b)
  else if 0xC2 ≤ b ∧ b ≤ 0xDF then .pending { value := b - 0xC0, missing := 1 }
  else if b = 0xE0 then .pending { value := 0, missing := 2, low := 0xA0 }
  else if b = 0xED then .pending { value := 0xD, missing := 2, high := 0x9F }
  else if 0xE1 ≤ b ∧ b ≤ 0xEF then .pending { value := b - 0xE0, missing := 2 }
  else if b = 0xF0 then .pending { value := 0, missing := 3, low := 0x90 }
  else if b = 0xF4 then .pending { value := 4, missing := 3, high := 0x8F }
  else if 0xF1 ≤ b ∧ b ≤ 0xF3 then .pending { value := b - 0xF0, missing := 3 }
  else .invalid

/-- U+FFFD. -/
def replacement : Char := Char.ofNat 0xFFFD

/-- The text after a byte that begins a character, given the rest. -/
def decodeLead (b : UInt8) (rest : Option Pending → List Char) : List Char :=
  match lead b.toNat with
  | .char c => c :: rest none
  | .pending p => rest (some p)
  | .invalid => replacement :: rest none

/-- The text of some bytes after a character that may be pending. -/
def decodeFrom : List UInt8 → Option Pending → List Char
  | [], none => []
  | [], some _ => [replacement]
  | b :: bytes, none => decodeLead b (decodeFrom bytes)
  | b :: bytes, some p =>
    if p.low ≤ b.toNat ∧ b.toNat ≤ p.high then
      if p.missing = 1 then Char.ofNat (64 * p.value + (b.toNat - 0x80)) :: decodeFrom bytes none
      else decodeFrom bytes (some
        { value := 64 * p.value + (b.toNat - 0x80), missing := p.missing - 1 })
    else replacement :: decodeLead b (decodeFrom bytes)

/-- `data.decode("utf-8", errors="replace")`. -/
def decodeUtf8 (bytes : List UInt8) : List Char := decodeFrom bytes none

/-! ### Encoded texts -/

section Encoded

variable {b : UInt8} {bytes : List UInt8} {p : Pending}

theorem decodeFrom_char (ascii : b.toNat < 0x80) :
    decodeFrom (b :: bytes) none = Char.ofNat b.toNat :: decodeFrom bytes none := by
  rw [decodeFrom, decodeLead, lead, if_pos ascii]

theorem decodeFrom_lead (begins : lead b.toNat = .pending p) :
    decodeFrom (b :: bytes) none = decodeFrom bytes (some p) := by
  rw [decodeFrom, decodeLead, begins]

theorem toNat_ofNat {n : ℕ} (small : n < 256) : (UInt8.ofNat n).toNat = n := by
  rw [UInt8.toNat_ofNat', Nat.mod_eq_of_lt small]

/-- A byte that goes on. -/
def tail (n : ℕ) : UInt8 := UInt8.ofNat (n % 64 + 0x80)

theorem toNat_tail (n : ℕ) : (tail n).toNat = n % 64 + 0x80 := toNat_ofNat (by omega)

theorem decodeFrom_next {n : ℕ} (low : p.low ≤ n % 64 + 0x80) (high : n % 64 + 0x80 ≤ p.high)
    (more : p.missing ≠ 1) :
    decodeFrom (tail n :: bytes) (some p) =
      decodeFrom bytes (some { value := 64 * p.value + n % 64, missing := p.missing - 1 }) := by
  rw [decodeFrom, toNat_tail, if_pos ⟨low, high⟩, if_neg more, Nat.add_sub_cancel]

theorem decodeFrom_last {n : ℕ} (low : p.low ≤ n % 64 + 0x80) (high : n % 64 + 0x80 ≤ p.high)
    (one : p.missing = 1) :
    decodeFrom (tail n :: bytes) (some p) =
      Char.ofNat (64 * p.value + n % 64) :: decodeFrom bytes none := by
  rw [decodeFrom, toNat_tail, if_pos ⟨low, high⟩, if_pos one, Nat.add_sub_cancel]

/-- Between the usual bounds every byte that goes on does. -/
theorem tail_bounds (n : ℕ) : 0x80 ≤ n % 64 + 0x80 ∧ n % 64 + 0x80 ≤ 0xBF := by omega

theorem lead_two {n : ℕ} (least : 2 ≤ n) (most : n < 32) :
    lead (n + 0xC0) = .pending { value := n, missing := 1 } := by
  rw [lead, if_neg (by omega), if_pos (by omega), Nat.add_sub_cancel]

theorem lead_three {n : ℕ} (small : n < 16) : lead (n + 0xE0) =
    .pending ⟨n, 2, if n = 0 then 0xA0 else 0x80, if n = 0xD then 0x9F else 0xBF⟩ := by
  rw [lead, if_neg (by omega), if_neg (by omega)]
  split_ifs <;> first | omega | simp <;> omega

theorem lead_four {n : ℕ} (small : n < 5) : lead (n + 0xF0) =
    .pending ⟨n, 3, if n = 0 then 0x90 else 0x80, if n = 4 then 0x8F else 0xBF⟩ := by
  rw [lead, if_neg (by omega), if_neg (by omega), if_neg (by omega), if_neg (by omega),
    if_neg (by omega)]
  split_ifs <;> first | omega | simp <;> omega

theorem decodeFrom_two {n : ℕ} (least : 0x7F < n) (most : n ≤ 0x7FF) :
    decodeFrom (UInt8.ofNat (n / 64 % 32 + 0xC0) :: tail n :: bytes) none =
      Char.ofNat n :: decodeFrom bytes none := by
  have first := toNat_ofNat (n := n / 64 % 32 + 0xC0) (by omega)
  have begins := lead_two (n := n / 64 % 32) (by omega) (by omega)
  have whole : 64 * (n / 64 % 32) + n % 64 = n := by omega
  rw [decodeFrom_lead (first ▸ begins), decodeFrom_last (tail_bounds n).1 (tail_bounds n).2 rfl,
    whole]

theorem decodeFrom_three {n : ℕ} (least : 0x7FF < n) (most : n ≤ 0xFFFF)
    (valid : n < 0xD800 ∨ 0xDFFF < n) :
    decodeFrom (UInt8.ofNat (n / 4096 % 16 + 0xE0) :: tail (n / 64) :: tail n :: bytes) none =
      Char.ofNat n :: decodeFrom bytes none := by
  have first := toNat_ofNat (n := n / 4096 % 16 + 0xE0) (by omega)
  have begins := lead_three (n := n / 4096 % 16) (by omega)
  have low : (if n / 4096 % 16 = 0 then 0xA0 else 0x80) ≤ n / 64 % 64 + 0x80 := by
    split_ifs <;> omega
  have high : n / 64 % 64 + 0x80 ≤ if n / 4096 % 16 = 0xD then 0x9F else 0xBF := by
    split_ifs <;> omega
  have whole : 64 * (64 * (n / 4096 % 16) + n / 64 % 64) + n % 64 = n := by omega
  rw [decodeFrom_lead (first ▸ begins), decodeFrom_next low high (show 2 ≠ 1 by decide),
    decodeFrom_last (tail_bounds n).1 (tail_bounds n).2 rfl, whole]

theorem decodeFrom_four {n : ℕ} (least : 0xFFFF < n) (most : n < 0x110000) :
    decodeFrom (UInt8.ofNat (n / 262144 % 8 + 0xF0) :: tail (n / 4096) :: tail (n / 64) :: tail n ::
      bytes) none =
      Char.ofNat n :: decodeFrom bytes none := by
  have first := toNat_ofNat (n := n / 262144 % 8 + 0xF0) (by omega)
  have begins := lead_four (n := n / 262144 % 8) (by omega)
  have low : (if n / 262144 % 8 = 0 then 0x90 else 0x80) ≤ n / 4096 % 64 + 0x80 := by
    split_ifs <;> omega
  have high : n / 4096 % 64 + 0x80 ≤ if n / 262144 % 8 = 4 then 0x8F else 0xBF := by
    split_ifs <;> omega
  have whole : 64 * (64 * (64 * (n / 262144 % 8) + n / 4096 % 64) + n / 64 % 64) + n % 64 = n := by
    omega
  rw [decodeFrom_lead (first ▸ begins), decodeFrom_next low high (show 3 ≠ 1 by decide),
    decodeFrom_next (tail_bounds _).1 (tail_bounds _).2 (show 3 - 1 ≠ 1 by decide),
    decodeFrom_last (tail_bounds n).1 (tail_bounds n).2 rfl, whole]

/-- **An encoded character** is decoded to itself, whatever follows it. -/
theorem decodeFrom_encodeChar (c : Char) (bytes : List UInt8) :
    decodeFrom (String.utf8EncodeChar c ++ bytes) none = c :: decodeFrom bytes none := by
  have valid : c.toNat < 0xD800 ∨ 0xDFFF < c.toNat ∧ c.toNat < 0x110000 := c.valid
  have back : Char.ofNat c.toNat = c := Char.ofNat_toNat c
  have bytesOf : String.utf8EncodeChar c = _ := String.utf8EncodeChar.eq_1 c
  simp only [show c.val.toNat = c.toNat from rfl] at bytesOf
  rw [bytesOf]
  generalize c.toNat = n at *
  by_cases one : n ≤ 0x7F
  · have value := toNat_ofNat (n := n) (by omega)
    rw [if_pos one, List.singleton_append, decodeFrom_char (by omega), value, back]
  rw [if_neg one]
  by_cases two : n ≤ 0x7FF
  · rw [if_pos two, ← back]
    exact decodeFrom_two (by omega) two
  rw [if_neg two]
  by_cases three : n ≤ 0xFFFF
  · rw [if_pos three, ← back]
    exact decodeFrom_three (by omega) three (valid.imp id And.left)
  · rw [if_neg three, ← back]
    exact decodeFrom_four (by omega) (by omega)

/-- **The text that was encoded** is the decoded one. -/
theorem decodeUtf8_encode (cs : List Char) :
    decodeUtf8 (cs.flatMap String.utf8EncodeChar) = cs := by
  unfold decodeUtf8
  induction cs with
  | nil => rfl
  | cons c cs ih => rw [List.flatMap_cons, decodeFrom_encodeChar, ih]

end Encoded

end AgentLabs.Text
