import LlmHardtest.Python.Lines
set_option autoImplicit false

/-! UTF-8 decoding, strict and with `errors="replace"`: an ill-formed sequence is replaced by one
U+FFFD for each maximal well-formed start. -/

namespace Python.Utf8

/-- Continuation bytes owed after a first byte, the range of the next one, and the bits read. -/
def lead (b : Nat) : Option (Nat × Nat × Nat × Nat) :=
  if b ≤ 0x7f then some (0, 0x80, 0xbf, b)
  else if 0xc2 ≤ b ∧ b ≤ 0xdf then some (1, 0x80, 0xbf, b - 0xc0)
  else if b = 0xe0 then some (2, 0xa0, 0xbf, 0)
  else if b = 0xed then some (2, 0x80, 0x9f, b - 0xe0)
  else if 0xe1 ≤ b ∧ b ≤ 0xef then some (2, 0x80, 0xbf, b - 0xe0)
  else if b = 0xf0 then some (3, 0x90, 0xbf, 0)
  else if b = 0xf4 then some (3, 0x80, 0x8f, 4)
  else if 0xf1 ≤ b ∧ b ≤ 0xf3 then some (3, 0x80, 0xbf, b - 0xf0)
  else none

/-- Read the bytes owed; `none` when the sequence breaks off, with the bytes not consumed. -/
def readTail : Nat → Nat → Nat → Nat → List UInt8 → Option Char × List UInt8
  | 0, _, _, code, bs => (some (Char.ofNat code), bs)
  | _ + 1, _, _, _, [] => (none, [])
  | owed + 1, low, high, code, b :: bs =>
      if low ≤ b.toNat ∧ b.toNat ≤ high then
        readTail owed 0x80 0xbf (code * 64 + (b.toNat - 0x80)) bs
      else (none, b :: bs)

/-- The characters read, `none` for each ill-formed sequence; `fuel` bounds the byte count. -/
def decodeFrom : Nat → List UInt8 → List (Option Char)
  | 0, _ => []
  | _ + 1, [] => []
  | fuel + 1, b :: bs =>
      match lead b.toNat with
      | none => none :: decodeFrom fuel bs
      | some (owed, low, high, code) =>
          let (c, rest) := readTail owed low high code bs
          c :: decodeFrom fuel rest

def decode (bs : List UInt8) : List (Option Char) := decodeFrom bs.length bs

/-- `bytes.decode("utf-8")`; `none` models `UnicodeDecodeError`. -/
def decodeStrict (bs : List UInt8) : Option Str := (decode bs).mapM id

def decodeReplace (bs : List UInt8) : Str := (decode bs).map fun c => c.getD '\ufffd'

theorem decodeReplace_of_strict {bs : List UInt8} {s : Str} (h : decodeStrict bs = some s) :
    decodeReplace bs = s := by
  unfold decodeStrict at h
  unfold decodeReplace
  generalize decode bs = cs at h
  induction cs generalizing s with
  | nil => simpa using h
  | cons c cs ih =>
    rw [List.mapM_cons] at h
    cases c with
    | none => simp at h
    | some c =>
      cases hcs : cs.mapM id with
      | none => simp [hcs] at h
      | some t =>
        obtain rfl : s = c :: t := by simpa [hcs] using h.symm
        simp [ih hcs]

example : decodeStrict [0xe2, 0x82, 0xac] = some ['\u20ac'] := by decide
example : decodeReplace [0x61, 0xf0, 0x80, 0xff] = ['a', '\ufffd', '\ufffd', '\ufffd'] := by decide

end Python.Utf8
