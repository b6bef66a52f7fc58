import SchemaDiagram.Text.Basic

namespace SchemaDiagram.Utf8

/-- What the first byte of a character says of the others: how many follow, and the bounds of the first
of them. -/
def followers? (lead : Nat) : Option (Nat × Nat × Nat) :=
  if lead < 0x80 then some (0, 0, 0)
  else if 0xC2 ≤ lead ∧ lead ≤ 0xDF then some (1, 0x80, 0xBF)
  else if lead = 0xE0 then some (2, 0xA0, 0xBF)
  else if lead = 0xED then some (2, 0x80, 0x9F)
  else if 0xE1 ≤ lead ∧ lead ≤ 0xEF then some (2, 0x80, 0xBF)
  else if lead = 0xF0 then some (3, 0x90, 0xBF)
  else if 0xF1 ≤ lead ∧ lead ≤ 0xF3 then some (3, 0x80, 0xBF)
  else if lead = 0xF4 then some (3, 0x80, 0x8F)
  else none

/-- The bits that the first byte of a character contributes when some bytes follow. -/
def leadBits (lead count : Nat) : Nat := if count = 0 then lead else lead % (0x40 >>> count)

/-- Reads the bytes that follow, as far as they fit. It gives the value and how many were read. -/
def readFollowers (low high : Nat) (value : Nat) : Nat → List UInt8 → Option Nat × Nat
  | 0, _ => (some value, 0)
  | _ + 1, [] => (none, 0)
  | count + 1, b :: rest =>
    if low ≤ b.toNat ∧ b.toNat ≤ high then
      let (result, read) := readFollowers 0x80 0xBF (value * 64 + b.toNat % 64) count rest
      (result, read + 1)
    else (none, 0)

/-- The characters of some bytes behind the first `skip`, where nothing stands for bytes that are part of
no character. -/
def decodeFrom (skip : Nat) : List UInt8 → List (Option Char)
  | [] => []
  | b :: rest =>
    match skip with
    | skip + 1 => decodeFrom skip rest
    | 0 =>
      match followers? b.toNat with
      | none => none :: decodeFrom 0 rest
      | some (count, low, high) =>
        let (value, read) := readFollowers low high (leadBits b.toNat count) count rest
        value.map Char.ofNat :: decodeFrom read rest

def decode (bytes : List UInt8) : List (Option Char) := decodeFrom 0 bytes

end SchemaDiagram.Utf8
