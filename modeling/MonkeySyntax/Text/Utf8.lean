import MonkeySyntax.Text.Hex

/-!
# UTF-8

`Utf8.decode` reads bytes as UTF-8.  Of bytes that are not, it gives the first fault: a byte
that starts no character, a byte that does not go on with the character before it, or the
end of the bytes within a character.  The fault tells the place of the bytes that are at
fault, which are those of the character as far as it goes.
-/

namespace MonkeySyntax.Text.Utf8

/-- What is wrong with bytes that are not UTF-8. -/
inductive Cause where
  | badStart
  | badContinuation
  | truncated
deriving DecidableEq, Repr

/-- The wording of a cause. -/
def Cause.message : Cause → String
  | badStart => "invalid start byte"
  | badContinuation => "invalid continuation byte"
  | truncated => "unexpected end of data"

/-- The first fault of bytes: its cause, the offsets of the first and the last byte at
fault, and the first of these bytes. -/
structure Fault where
  cause : Cause
  first : Nat
  last : Nat
  byte : Nat
deriving DecidableEq, Repr

/-- The wording of a fault. -/
def Fault.message (f : Fault) : String :=
  let place :=
    if f.first = f.last then
      "byte 0x" ++ String.ofList (hex 2 f.byte) ++ " in position " ++ toString f.first
    else
      "bytes in position " ++ toString f.first ++ "-" ++ toString f.last
  "'utf-8' codec can't decode " ++ place ++ ": " ++ f.cause.message

/-- A character of which the first bytes have been read: where it started, with which byte,
how many bytes it needs yet, and the range of the next one. -/
structure Pending where
  first : Nat
  byte : Nat
  owed : Nat
  least : Nat
  greatest : Nat
deriving DecidableEq, Repr

/-- The character of several bytes that a byte starts. -/
def Pending.start? (first byte : Nat) : Option Pending :=
  if 0xc2 ≤ byte && byte ≤ 0xdf then some ⟨first, byte, 1, 0x80, 0xbf⟩
  else if byte == 0xe0 then some ⟨first, byte, 2, 0xa0, 0xbf⟩
  else if byte == 0xed then some ⟨first, byte, 2, 0x80, 0x9f⟩
  else if 0xe1 ≤ byte && byte ≤ 0xef then some ⟨first, byte, 2, 0x80, 0xbf⟩
  else if byte == 0xf0 then some ⟨first, byte, 3, 0x90, 0xbf⟩
  else if 0xf1 ≤ byte && byte ≤ 0xf3 then some ⟨first, byte, 3, 0x80, 0xbf⟩
  else if byte == 0xf4 then some ⟨first, byte, 3, 0x80, 0x8f⟩
  else none

/-- The first fault of bytes that are not UTF-8, from an offset on, within a character or
between two. -/
def firstFault (position : Nat) (pending : Option Pending) : List UInt8 → Fault
  | [] =>
    match pending with
    | some c => ⟨.truncated, c.first, position - 1, c.byte⟩
    | none => ⟨.truncated, position, position, 0⟩
  | b :: bs =>
    match pending with
    | some c =>
      if c.least ≤ b.toNat && b.toNat ≤ c.greatest then
        if c.owed = 1 then firstFault (position + 1) none bs
        else firstFault (position + 1) (some ⟨c.first, c.byte, c.owed - 1, 0x80, 0xbf⟩) bs
      else
        ⟨.badContinuation, c.first, position - 1, c.byte⟩
    | none =>
      if b.toNat < 0x80 then firstFault (position + 1) none bs
      else match Pending.start? position b.toNat with
        | some c => firstFault (position + 1) (some c) bs
        | none => ⟨.badStart, position, position, b.toNat⟩

/-- The text that bytes encode, or their first fault. -/
def decode (bytes : ByteArray) : Except Fault String :=
  match String.fromUTF8? bytes with
  | some text => .ok text
  | none => .error (firstFault 0 none bytes.toList)

end MonkeySyntax.Text.Utf8
