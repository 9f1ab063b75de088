import Mathlib.Tactic
import Checkpointing.Format.Codec
import Checkpointing.Proofs.Table

/-!
# Codecs lose nothing

A codec is lossless if it reads every value that its form has room for back from what it writes,
and leaves what follows.  All the forms that records are built from are lossless, and the ways to
build new forms keep this.

* `Lossless` is the law, `Lossless.read?_encode` what it says of a whole record;
* `lossless_word`, `lossless_signed`, `lossless_text` are the forms with a range;
* `Lossless.pair`, `Lossless.option`, `Lossless.sequence`, `Lossless.table`, `Lossless.via` build
  new ones.
-/

namespace Checkpointing
namespace Codec

variable {α β : Type}

/-- The codec reads back what it has written and leaves what follows. -/
def Lossless (c : Codec α) : Prop :=
  ∀ (a : α) (rest : List UInt8), c.Fits a → c.decode (c.encode a ++ rest) = some (a, rest)

/-- A lossless codec reads a value from the bytes it was written as. -/
theorem Lossless.read?_encode {c : Codec α} (h : c.Lossless) {a : α} (ha : c.Fits a) :
    c.read? (c.encode a) = some a := by
  have hread := h a [] ha
  rw [List.append_nil] at hread
  simp [read?, hread]

/-! ### Words -/

theorem readWord_wordBytes (width n : Nat) (rest : List UInt8) (h : n < 256 ^ width) :
    readWord width (wordBytes width n ++ rest) = some (n, rest) := by
  induction width generalizing n with
  | zero =>
    have hzero : n = 0 := by simpa using h
    rw [hzero]
    rfl
  | succ width ih =>
    have hhigh : n / 256 < 256 ^ width := by
      rw [Nat.pow_succ] at h
      exact Nat.div_lt_of_lt_mul (by rw [Nat.mul_comm]; exact h)
    have hlow : (UInt8.ofNat n).toNat = n % 256 := UInt8.toNat_ofNat' ..
    show (readWord width (wordBytes width (n / 256) ++ rest)).map _ = _
    rw [ih _ hhigh]
    show some ((UInt8.ofNat n).toNat + 256 * (n / 256), rest) = _
    rw [hlow, Nat.mod_add_div]

theorem lossless_word (width : Nat) : (word width).Lossless := by
  intro n rest h
  exact readWord_wordBytes width n rest h

/-- The low bytes of a signed integer give the integer back. -/
theorem toSigned_emod {i : Int} (h : Word.IsSigned i) :
    Word.toSigned (i % Word.size64).toNat = i := by
  obtain ⟨hmin, hmax⟩ := h
  -- Linear arithmetic needs the bounds as numerals.
  have hmin' : -9223372036854775808 ≤ i := hmin
  have hmax' : i ≤ 9223372036854775807 := hmax
  have hpos : 0 ≤ i % (18446744073709551616 : Int) := Int.emod_nonneg i (by omega)
  simp only [Word.toSigned, Word.size64]
  rw [show ((18446744073709551616 : Nat) : Int) = 18446744073709551616 from rfl,
    Int.toNat_of_nonneg hpos, Int.bmod_def]
  split <;> omega

theorem lossless_signed : signed.Lossless := by
  intro i rest h
  have hlt : (i % (Word.size64 : Int)).toNat < 256 ^ 8 := by
    have hpos := Int.emod_nonneg i (show (Word.size64 : Int) ≠ 0 by decide)
    have hbound := Int.emod_lt_of_pos i (show (0 : Int) < Word.size64 by decide)
    have hsize : (Word.size64 : Int) = 18446744073709551616 := rfl
    omega
  simp only [signed]
  rw [readWord_wordBytes 8 _ rest hlt, Option.map_some, toSigned_emod h]

theorem lossless_flag : flag.Lossless := by
  intro b rest _
  cases b <;> rfl

/-! ### Composition -/

theorem Lossless.via {c : Codec α} (h : c.Lossless) {pack : α → β} {unpack : β → α}
    (hpack : ∀ b, pack (unpack b) = b) : (c.via pack unpack).Lossless := by
  intro b rest hb
  show (c.decode (c.encode (unpack b) ++ rest)).map _ = _
  rw [h _ rest hb]
  show some (pack (unpack b), rest) = _
  rw [hpack]

theorem Lossless.pair {c : Codec α} {d : Codec β} (hc : c.Lossless) (hd : d.Lossless) :
    (c.pair d).Lossless := by
  intro p rest hp
  show (c.decode (c.encode p.1 ++ d.encode p.2 ++ rest)).bind _ = _
  rw [List.append_assoc, hc _ _ hp.1]
  show (d.decode (d.encode p.2 ++ rest)).map _ = _
  rw [hd _ rest hp.2]
  rfl

theorem Lossless.option {c : Codec α} (h : c.Lossless) : c.option.Lossless := by
  intro a rest ha
  cases a with
  | none => rfl
  | some a =>
    show (c.decode (c.encode a ++ rest)).map _ = _
    rw [h a rest (ha a rfl)]
    rfl

theorem lossless_choice [DecidableEq α] {all : List α} (h : all.length ≤ 256 ^ 4) :
    (choice all).Lossless := by
  intro a rest ha
  have hmem : a ∈ all := ha
  have hlt : all.idxOf a < all.length := List.idxOf_lt_length_of_mem hmem
  simp only [choice]
  rw [readWord_wordBytes 4 _ rest (by omega), Option.bind_some, List.getElem?_eq_getElem hlt,
    List.getElem_idxOf, Option.map_some]

/-! ### Sequences -/

theorem readMany_flatMap {c : Codec α} (h : c.Lossless) (l : List α) (rest : List UInt8)
    (hl : ∀ a ∈ l, c.Fits a) :
    readMany c l.length (l.flatMap c.encode ++ rest) = some (l, rest) := by
  induction l with
  | nil => rfl
  | cons a l ih =>
    rw [List.flatMap_cons, List.append_assoc]
    show (c.decode (c.encode a ++ (l.flatMap c.encode ++ rest))).bind _ = _
    rw [h a _ (hl a List.mem_cons_self)]
    show (readMany c l.length (l.flatMap c.encode ++ rest)).map _ = _
    rw [ih fun b hb => hl b (List.mem_cons_of_mem _ hb)]
    rfl

theorem Lossless.sequence {c : Codec α} (h : c.Lossless) : c.sequence.Lossless := by
  intro l rest hl
  have hlength : l.length < 256 ^ 8 := by
    have hle : l.length ≤ 18446744073709551615 := hl.1
    omega
  simp only [Codec.sequence]
  rw [List.append_assoc, readWord_wordBytes 8 _ _ hlength, Option.bind_some]
  exact readMany_flatMap h l rest hl.2

theorem lossless_bytes : bytes.Lossless := by
  have hbyte : byte.Lossless := by
    intro b rest _
    rfl
  exact hbyte.sequence

/-- Reading the bytes of an array one after the other, from the end backwards. -/
theorem toList_loop (b : ByteArray) (i : Nat) (read : List UInt8) :
    ByteArray.toList.loop b i read = read.reverse ++ b.data.toList.drop i := by
  induction hleft : b.size - i generalizing i read with
  | zero =>
    have hend : b.data.toList.drop i = [] := by
      refine List.drop_eq_nil_of_le ?_
      rw [Array.length_toList]
      exact Nat.le_of_sub_eq_zero hleft
    rw [ByteArray.toList.loop, if_neg (by omega), hend, List.append_nil]
  | succ left ih =>
    have hlt : i < b.size := by omega
    have hlist : i < b.data.toList.length := by rwa [Array.length_toList]
    have hget : b.get! i = b.data.toList[i] := by
      show b.data[i]! = _
      rw [getElem!_pos b.data i hlt, Array.getElem_toList]
    rw [ByteArray.toList.loop, if_pos hlt, ih (i + 1) _ (by omega), hget, List.reverse_cons,
      List.append_assoc, List.singleton_append, List.getElem_cons_drop]

theorem byteArray_toList (b : ByteArray) : b.toList = b.data.toList := by
  rw [ByteArray.toList, toList_loop]
  rfl

/-- A text is written if its length in bytes fits its word. -/
theorem fits_text {s : String} (h : s.utf8ByteSize ≤ Word.max64) : text.Fits s := by
  have hlength : s.toUTF8.toList.length = s.utf8ByteSize := by
    rw [byteArray_toList, Array.length_toList]
    rfl
  exact ⟨hlength.le.trans h, fun _ _ => trivial⟩

theorem lossless_text : text.Lossless := by
  intro s rest hs
  have hvalid : s.toUTF8.IsValidUTF8 := s.isValidUTF8
  simp only [text]
  rw [lossless_bytes _ rest hs, Option.bind_some, byteArray_toList, Array.toArray_toList,
    String.fromUTF8?, dif_pos hvalid]
  rfl

theorem Lossless.table {κ ν : Type} [Ord κ] [DecidableEq κ] [Std.TransOrd κ] [Std.LawfulEqOrd κ]
    {c : Codec κ} {d : Codec ν} (hc : c.Lossless) (hd : d.Lossless) : (table c d).Lossless :=
  (hc.pair hd).sequence.via Table.ofList_entries

end Codec
end Checkpointing
