import Checkpointing.Table
import Checkpointing.Word

/-!
# Binary codecs

A codec writes values as bytes and reads one value from the front of bytes, leaving the rest.
Whole numbers are little-endian words of a fixed width, choices are one byte or a 32-bit index, and
sequences start with their 64-bit length.

## Main definitions

* `Codec` pairs a writer with a reader; `Codec.Fits` says which values its form can hold.
* `word`, `signed`, `flag`, `choice`, `pair`, `option`, `sequence`, `bytes`, `text` and `table` are
  the forms that records are built from, `via` changes the type.
-/

namespace Checkpointing

/-- A writer and a reader of one binary form. -/
structure Codec (α : Type) where
  encode : α → List UInt8
  /-- Reads one value from the front and answers what follows it. -/
  decode : List UInt8 → Option (α × List UInt8)
  /-- The form has room for the value. -/
  Fits : α → Prop

namespace Codec

variable {α β : Type}

/-- The value at the front of the bytes, whatever follows it. -/
def read? (c : Codec α) (b : List UInt8) : Option α := (c.decode b).map (·.1)

/-! ### Words -/

/-- The lowest `width` bytes of a number, the least significant first. -/
def wordBytes : Nat → Nat → List UInt8
  | 0, _ => []
  | width + 1, n => UInt8.ofNat n :: wordBytes width (n / 256)

/-- Reads a number of `width` bytes. -/
def readWord : Nat → List UInt8 → Option (Nat × List UInt8)
  | 0, b => some (0, b)
  | _ + 1, [] => none
  | width + 1, x :: b => (readWord width b).map fun (n, rest) => (x.toNat + 256 * n, rest)

/-- Numbers as words of `width` bytes. -/
def word (width : Nat) : Codec Nat where
  encode := wordBytes width
  decode := readWord width
  Fits n := n < Nat.pow 256 width

/-- Integers as words of eight bytes in two's complement. -/
def signed : Codec Int where
  encode i := wordBytes 8 (i % Word.size64).toNat
  decode b := (readWord 8 b).map fun (n, rest) => (Word.toSigned n, rest)
  Fits := Word.IsSigned

/-- A truth value as the byte 0 or 1. -/
def flag : Codec Bool where
  encode b := [if b then 1 else 0]
  decode
    | 0 :: rest => some (false, rest)
    | 1 :: rest => some (true, rest)
    | _ => none
  Fits _ := True

/-! ### Composition -/

/-- Another type in the same form. -/
def via (c : Codec α) (pack : α → β) (unpack : β → α) : Codec β where
  encode b := c.encode (unpack b)
  decode s := (c.decode s).map fun (a, rest) => (pack a, rest)
  Fits b := c.Fits (unpack b)

/-- One value after the other. -/
def pair (c : Codec α) (d : Codec β) : Codec (α × β) where
  encode p := c.encode p.1 ++ d.encode p.2
  decode s := (c.decode s).bind fun (a, rest) => (d.decode rest).map fun (b, rest) => ((a, b), rest)
  Fits p := c.Fits p.1 ∧ d.Fits p.2

/-- A value that may be absent, after a byte that tells whether it is there. -/
def option (c : Codec α) : Codec (Option α) where
  encode
    | none => [0]
    | some a => 1 :: c.encode a
  decode
    | 0 :: rest => some (none, rest)
    | 1 :: rest => (c.decode rest).map fun (a, rest) => (some a, rest)
    | _ => none
  Fits a := ∀ x, a = some x → c.Fits x

/-- One of finitely many values, as its 32-bit place in the list. -/
def choice [DecidableEq α] (all : List α) : Codec α where
  encode a := wordBytes 4 (all.idxOf a)
  decode s := (readWord 4 s).bind fun (n, rest) => (all[n]?).map fun a => (a, rest)
  Fits a := a ∈ all

/-- Reads the given number of values. -/
def readMany (c : Codec α) : Nat → List UInt8 → Option (List α × List UInt8)
  | 0, s => some ([], s)
  | n + 1, s =>
    (c.decode s).bind fun (a, rest) =>
      (readMany c n rest).map fun (as, rest) => (a :: as, rest)

/-- A list, after its 64-bit length. -/
def sequence (c : Codec α) : Codec (List α) where
  encode l := wordBytes 8 l.length ++ l.flatMap c.encode
  decode s := (readWord 8 s).bind fun (n, rest) => readMany c n rest
  Fits l := l.length ≤ Word.max64 ∧ ∀ a ∈ l, c.Fits a

/-- A single byte. -/
def byte : Codec UInt8 where
  encode b := [b]
  decode
    | [] => none
    | b :: rest => some (b, rest)
  Fits _ := True

/-- Bytes, after their 64-bit length. -/
def bytes : Codec (List UInt8) := sequence byte

/-- Text in UTF-8, after its 64-bit length in bytes. -/
def text : Codec String where
  encode s := bytes.encode s.toUTF8.toList
  decode b := (bytes.decode b).bind fun (l, rest) =>
    (String.fromUTF8? ⟨l.toArray⟩).map fun s => (s, rest)
  Fits s := bytes.Fits s.toUTF8.toList

/-- A table as the sequence of its bindings; of two bindings of a key the later one counts. -/
def table {κ ν : Type} [Ord κ] [Std.TransOrd κ] (c : Codec κ) (d : Codec ν) : Codec (Table κ ν) :=
  (sequence (pair c d)).via Table.ofList Table.entries

end Codec

end Checkpointing
