import Mathlib.Tactic
import Checkpointing.Proofs.Format.Record

/-!
# What is read

Bytes that end too early are never taken for a whole record, and whatever is read has a record of
its own.

* `Codec.Sound` says of a codec that what it reads does not depend on what follows, and fits its
  form; `Sound.pair`, `Sound.option`, `Sound.sequence`, `Sound.table`, `Sound.via` build new ones,
  as for `Codec.Lossless`;
* `Codec.Lossless.decode_strict_prefix`: a codec with both laws reads nothing from a value that is
  cut short;
* `Record.sound_snapshot` is the law of snapshots, `Record.recordable_of_fits` says which ones are
  read;
* `Record.reads_whole_records_only` is the main statement.
-/

namespace Checkpointing
namespace Codec

variable {α β : Type} {c : Codec α} {d : Codec β} {a : α} {b rest : List UInt8}

/-- The codec reads no further than it has to, and reads only values that its form has room for. -/
structure Sound (c : Codec α) : Prop where
  /-- Bytes that are appended are left over. -/
  append : ∀ {b rest : List UInt8} {a : α} (more : List UInt8),
    c.decode b = some (a, rest) → c.decode (b ++ more) = some (a, rest ++ more)
  fits : ∀ {b rest : List UInt8} {a : α}, c.decode b = some (a, rest) → c.Fits a

/-- A value that is cut short cannot be read: if it could, the bytes that are missing would be left
over from the whole value. -/
theorem Lossless.decode_strict_prefix (hc : c.Lossless) (hsound : c.Sound) (ha : c.Fits a)
    (hcut : b <+: c.encode a) (hne : b ≠ c.encode a) : c.decode b = none := by
  obtain ⟨missing, hwhole⟩ := hcut
  cases hread : c.decode b with
  | none => rfl
  | some read =>
    obtain ⟨a', left⟩ := read
    have hmore : c.decode (c.encode a) = some (a', left ++ missing) := by
      rw [← hwhole]
      exact hsound.append missing hread
    have hall : c.decode (c.encode a) = some (a, []) := by
      simpa using hc a [] ha
    have hnothing : left ++ missing = [] :=
      (Prod.mk.inj (Option.some.inj (hmore.symm.trans hall))).2
    rw [(List.append_eq_nil_iff.1 hnothing).2, List.append_nil] at hwhole
    exact absurd hwhole hne

/-- What was read can be written, and is read again from what is written. -/
theorem Lossless.decode_encode_of_decode (hc : c.Lossless) (hsound : c.Sound)
    (hread : c.decode b = some (a, rest)) (more : List UInt8) :
    c.decode (c.encode a ++ more) = some (a, more) :=
  hc a more (hsound.fits hread)

/-! ### Words -/

theorem readWord_append {width n : Nat} (more : List UInt8)
    (h : readWord width b = some (n, rest)) :
    readWord width (b ++ more) = some (n, rest ++ more) := by
  induction width generalizing b n with
  | zero =>
    cases h
    rfl
  | succ width ih =>
    cases b with
    | nil => cases h
    | cons x b =>
      obtain ⟨⟨high, left⟩, hhigh, he⟩ := Option.map_eq_some_iff.1 h
      cases he
      show (readWord width (b ++ more)).map _ = _
      rw [ih hhigh]
      rfl

theorem readWord_lt {width n : Nat} (h : readWord width b = some (n, rest)) : n < 256 ^ width := by
  induction width generalizing b n with
  | zero =>
    cases h
    exact Nat.one_pos
  | succ width ih =>
    cases b with
    | nil => cases h
    | cons x b =>
      obtain ⟨⟨high, left⟩, hhigh, he⟩ := Option.map_eq_some_iff.1 h
      cases he
      have hlow : x.toNat < 256 := x.toNat_lt
      have hbound := ih hhigh
      rw [Nat.pow_succ]
      omega

theorem sound_word (width : Nat) : (word width).Sound where
  append := fun more h => readWord_append more h
  fits := fun h => readWord_lt h

theorem sound_signed : signed.Sound where
  append := fun {b rest i} more h => by
    obtain ⟨⟨n, left⟩, hword, he⟩ := Option.map_eq_some_iff.1 h
    obtain ⟨rfl, rfl⟩ := Prod.mk.inj he
    show (readWord 8 (b ++ more)).map _ = _
    rw [readWord_append more hword]
    rfl
  fits := fun {b rest i} h => by
    obtain ⟨⟨n, left⟩, -, he⟩ := Option.map_eq_some_iff.1 h
    obtain ⟨rfl, rfl⟩ := Prod.mk.inj he
    exact Word.isSigned_toSigned n

theorem sound_flag : flag.Sound where
  append := fun {b rest x} more h => by
    simp only [flag] at h ⊢
    split at h
    · cases h
      rfl
    · cases h
      rfl
    · cases h
  fits := fun _ => trivial

theorem sound_byte : byte.Sound where
  append := fun {b rest x} more h => by
    cases b with
    | nil => cases h
    | cons x b =>
      cases h
      rfl
  fits := fun _ => trivial

/-! ### Composition -/

theorem Sound.via (h : c.Sound) {pack : α → β} {unpack : β → α}
    (hfits : ∀ a, c.Fits a → c.Fits (unpack (pack a))) : (c.via pack unpack).Sound where
  append := fun {b rest x} more hread => by
    obtain ⟨⟨a, left⟩, ha, he⟩ := Option.map_eq_some_iff.1 hread
    cases he
    show (c.decode (b ++ more)).map _ = _
    rw [h.append more ha]
    rfl
  fits := fun {b rest x} hread => by
    obtain ⟨⟨a, left⟩, ha, he⟩ := Option.map_eq_some_iff.1 hread
    cases he
    exact hfits a (h.fits ha)

theorem Sound.pair (hc : c.Sound) (hd : d.Sound) : (c.pair d).Sound where
  append := fun {b rest p} more hread => by
    obtain ⟨⟨x, left⟩, hx, hsecond⟩ := Option.bind_eq_some_iff.1 hread
    obtain ⟨⟨y, left'⟩, hy, he⟩ := Option.map_eq_some_iff.1 hsecond
    cases he
    show (c.decode (b ++ more)).bind _ = _
    rw [hc.append more hx]
    show (d.decode (left ++ more)).map _ = _
    rw [hd.append more hy]
    rfl
  fits := fun {b rest p} hread => by
    obtain ⟨⟨x, left⟩, hx, hsecond⟩ := Option.bind_eq_some_iff.1 hread
    obtain ⟨⟨y, left'⟩, hy, he⟩ := Option.map_eq_some_iff.1 hsecond
    cases he
    exact ⟨hc.fits hx, hd.fits hy⟩

theorem Sound.option (h : c.Sound) : c.option.Sound where
  append := fun {b rest x} more hread => by
    simp only [Codec.option] at hread ⊢
    split at hread
    · cases hread
      rfl
    · next tail =>
      obtain ⟨⟨a, left⟩, ha, he⟩ := Option.map_eq_some_iff.1 hread
      cases he
      show (c.decode (tail ++ more)).map _ = _
      rw [h.append more ha]
      rfl
    · cases hread
  fits := fun {b rest x} hread => by
    simp only [Codec.option] at hread
    split at hread
    · cases hread
      exact fun _ hnone => nomatch hnone
    · next tail =>
      obtain ⟨⟨a, left⟩, ha, he⟩ := Option.map_eq_some_iff.1 hread
      cases he
      rintro _ ⟨⟩
      exact h.fits ha
    · cases hread

theorem sound_choice [DecidableEq α] (all : List α) : (choice all).Sound where
  append := fun {b rest a} more hread => by
    obtain ⟨⟨n, left⟩, hword, hchosen⟩ := Option.bind_eq_some_iff.1 hread
    obtain ⟨a, ha, he⟩ := Option.map_eq_some_iff.1 hchosen
    cases he
    show (readWord 4 (b ++ more)).bind _ = _
    rw [readWord_append more hword]
    show (all[n]?).map _ = _
    rw [ha]
    rfl
  fits := fun {b rest a} hread => by
    obtain ⟨⟨n, left⟩, -, hchosen⟩ := Option.bind_eq_some_iff.1 hread
    obtain ⟨a, ha, he⟩ := Option.map_eq_some_iff.1 hchosen
    cases he
    exact List.mem_of_getElem? ha

/-! ### Sequences -/

theorem readMany_append (h : c.Sound) {n : Nat} {l : List α} (more : List UInt8)
    (hread : readMany c n b = some (l, rest)) :
    readMany c n (b ++ more) = some (l, rest ++ more) := by
  induction n generalizing b l with
  | zero =>
    cases hread
    rfl
  | succ n ih =>
    obtain ⟨⟨a, left⟩, ha, hothers⟩ := Option.bind_eq_some_iff.1 hread
    obtain ⟨⟨as, left'⟩, has, he⟩ := Option.map_eq_some_iff.1 hothers
    cases he
    show (c.decode (b ++ more)).bind _ = _
    rw [h.append more ha]
    show (readMany c n (left ++ more)).map _ = _
    rw [ih has]
    rfl

/-- As many values are read as were asked for, and each fits. -/
theorem fits_of_readMany (h : c.Sound) {n : Nat} {l : List α}
    (hread : readMany c n b = some (l, rest)) : l.length = n ∧ ∀ a ∈ l, c.Fits a := by
  induction n generalizing b l with
  | zero =>
    cases hread
    exact ⟨rfl, by simp⟩
  | succ n ih =>
    obtain ⟨⟨a, left⟩, ha, hothers⟩ := Option.bind_eq_some_iff.1 hread
    obtain ⟨⟨as, left'⟩, has, he⟩ := Option.map_eq_some_iff.1 hothers
    cases he
    obtain ⟨hlength, hall⟩ := ih has
    exact ⟨congrArg (· + 1) hlength, List.forall_mem_cons.2 ⟨h.fits ha, hall⟩⟩

theorem Sound.sequence (h : c.Sound) : c.sequence.Sound where
  append := fun {b rest l} more hread => by
    obtain ⟨⟨n, left⟩, hword, hmany⟩ := Option.bind_eq_some_iff.1 hread
    show (readWord 8 (b ++ more)).bind _ = _
    rw [readWord_append more hword]
    exact readMany_append h more hmany
  fits := fun {b rest l} hread => by
    obtain ⟨⟨n, left⟩, hword, hmany⟩ := Option.bind_eq_some_iff.1 hread
    obtain ⟨hlength, hall⟩ := fits_of_readMany h hmany
    have hbound := readWord_lt hword
    refine ⟨?_, hall⟩
    rw [hlength, Word.max64]
    omega

theorem sound_bytes : bytes.Sound := sound_byte.sequence

theorem sound_text : text.Sound where
  append := fun {b rest s} more hread => by
    obtain ⟨⟨l, left⟩, hl, hvalid⟩ := Option.bind_eq_some_iff.1 hread
    obtain ⟨s, hs, he⟩ := Option.map_eq_some_iff.1 hvalid
    cases he
    show (bytes.decode (b ++ more)).bind _ = _
    rw [sound_bytes.append more hl]
    show (String.fromUTF8? ⟨l.toArray⟩).map _ = _
    rw [hs]
    rfl
  fits := fun {b rest s} hread => by
    obtain ⟨⟨l, left⟩, hl, hvalid⟩ := Option.bind_eq_some_iff.1 hread
    obtain ⟨s, hs, he⟩ := Option.map_eq_some_iff.1 hvalid
    cases he
    -- The text has just the bytes that it was read from.
    have hbytes : s.toUTF8.toList = l := by
      rw [String.fromUTF8?] at hs
      split at hs
      · cases hs
        rw [byteArray_toList]
        rfl
      · cases hs
    show bytes.Fits s.toUTF8.toList
    rw [hbytes]
    exact sound_bytes.fits hl

theorem Sound.table {κ ν : Type} [Ord κ] [DecidableEq κ] [Std.TransOrd κ] [Std.LawfulEqOrd κ]
    {c : Codec κ} {d : Codec ν} (hc : c.Sound) (hd : d.Sound) : (table c d).Sound := by
  refine (hc.pair hd).sequence.via fun l hl => ?_
  obtain ⟨hlength, hall⟩ := hl
  exact ⟨(Table.size_ofList_le l).trans hlength,
    fun e he => hall e (Table.mem_of_mem_entries_ofList he)⟩

end Codec

namespace Record

theorem sound_taskRun : taskRun.Sound :=
  ((Codec.sound_word 4).pair ((Codec.sound_word 8).pair (Codec.sound_word 4))).via fun _ h => h

theorem sound_snapshotKind : snapshotKind.Sound where
  append := fun {b rest kind} more hread => by
    obtain ⟨⟨index, left⟩, hindex, hkind⟩ := Option.bind_eq_some_iff.1 hread
    have hmore : word32.decode (b ++ more) = some (index, left ++ more) :=
      (Codec.sound_word 4).append more hindex
    simp only [snapshotKind]
    rw [hmore, Option.bind_some]
    dsimp only at hkind ⊢
    split at hkind
    · cases hkind
      rfl
    · obtain ⟨⟨pair, left'⟩, hpair, he⟩ := Option.map_eq_some_iff.1 hkind
      cases he
      have hsound :=
        (Codec.sound_choice SavepointKind.all).pair (Codec.sound_choice SavepointFormat.all)
      rw [hsound.append more hpair]
      rfl
    · cases hkind
  fits := fun _ => trivial

theorem sound_discardRules : discardRules.Sound :=
  (Codec.sound_flag.pair (Codec.sound_flag.pair (Codec.sound_flag.pair
    (Codec.sound_flag.pair Codec.sound_flag)))).via fun _ h => h

theorem sound_policy : policy.Sound :=
  (sound_snapshotKind.pair (Codec.sound_flag.pair
    (sound_discardRules.pair Codec.sound_flag))).via fun _ h => h

theorem sound_snapshot : snapshot.Sound :=
  ((Codec.sound_word 8).pair (sound_policy.pair (Codec.sound_signed.pair
    (Codec.sound_signed.pair ((sound_taskRun.table Codec.sound_bytes).pair
      Codec.sound_text.option))))).via fun _ h => h

/-- The snapshots for which the form of records has room are those whose numbers, times and lengths
fit their words. -/
theorem recordable_of_fits {s : Snapshot} (h : snapshot.Fits s) : s.Recordable := by
  obtain ⟨hid, -, htriggered, hcompleted, ⟨hsize, hentries⟩, hpointer⟩ := h
  refine ⟨Nat.le_of_lt_succ hid, htriggered, hcompleted, hsize, ?_, ?_⟩
  · intro e he
    obtain ⟨⟨hvertex, hsubtask, hattempt⟩, hbytes, -⟩ := hentries e he
    exact ⟨⟨Nat.le_of_lt_succ hvertex, Nat.le_of_lt_succ hsubtask, Nat.le_of_lt_succ hattempt⟩,
      hbytes⟩
  · intro text htext
    have hlength : text.toUTF8.toList.length = text.utf8ByteSize := by
      rw [Codec.byteArray_toList, Array.length_toList]
      rfl
    rw [← hlength]
    exact (hpointer text htext).1

/-- The record of a snapshot reads back as that snapshot, whatever follows it, and nothing is read
from a record that is cut short.  Whatever bytes a snapshot is read from, it has a record, and that
record reads back as the snapshot too. -/
theorem reads_whole_records_only {s : Snapshot} (hs : s.Recordable) :
    (∀ more, snapshot.decode (snapshot.encode s ++ more) = some (s, more)) ∧
    (∀ b, b <+: snapshot.encode s → b ≠ snapshot.encode s → snapshot.decode b = none) ∧
    ∀ b s' rest, snapshot.decode b = some (s', rest) → s'.Recordable ∧
      ∀ more, snapshot.decode (snapshot.encode s' ++ more) = some (s', more) := by
  refine ⟨fun more => lossless_snapshot s more (fits_snapshot hs), fun b hcut hne => ?_, ?_⟩
  · exact lossless_snapshot.decode_strict_prefix sound_snapshot (fits_snapshot hs) hcut hne
  · intro b s' rest hread
    exact ⟨recordable_of_fits (sound_snapshot.fits hread),
      lossless_snapshot.decode_encode_of_decode sound_snapshot hread⟩

/-- A savepoint of two tasks that was restored without being claimed. -/
def unclaimedSavepoint : Snapshot where
  id := 7
  policy := { SnapshotPolicy.savepoint true .native with unclaimed := true }
  triggeredAt := -10
  completedAt := 20
  handles := Table.ofList [(⟨2, 0, 1⟩, []), (⟨1, 0, 0⟩, [7, 8])]
  pointer := some "é"

/-- A record that no snapshot was written as: one run stands in it twice. -/
def doubledRecord : List UInt8 :=
  word64.encode 7 ++ policy.encode (.ofRetention .onFailure) ++ Codec.signed.encode 10 ++
    Codec.signed.encode 20 ++ word64.encode 2 ++ taskRun.encode ⟨1, 0, 0⟩ ++
    Codec.bytes.encode [7] ++ taskRun.encode ⟨1, 0, 0⟩ ++ Codec.bytes.encode [8] ++ [0]

theorem reads_whole_records_only_of_savepoint : unclaimedSavepoint.Recordable ∧
    snapshot.decode (snapshot.encode unclaimedSavepoint ++ [1]) = some (unclaimedSavepoint, [1]) ∧
    snapshot.decode (snapshot.encode unclaimedSavepoint).dropLast = none ∧
    ∃ s, snapshot.decode doubledRecord = some (s, []) ∧
      s.handles.entries = [(⟨1, 0, 0⟩, [8])] ∧ snapshot.encode s ≠ doubledRecord ∧
      snapshot.decode (snapshot.encode s ++ []) = some (s, []) := by
  have hs : unclaimedSavepoint.Recordable := by
    refine ⟨by decide, by decide, by decide, by decide, by decide, ?_⟩
    rintro _ ⟨⟩
    decide
  obtain ⟨hwhole, hcut, hread⟩ := reads_whole_records_only hs
  refine ⟨hs, hwhole [1], hcut _ (List.dropLast_prefix _) (by decide +kernel), ?_⟩
  have hdoubled : ∃ s, snapshot.decode doubledRecord = some (s, []) ∧
      s.handles.entries = [(⟨1, 0, 0⟩, [8])] ∧ snapshot.encode s ≠ doubledRecord :=
    ⟨_, rfl, rfl, by decide +kernel⟩
  obtain ⟨s, hdecode, hhandles, hother⟩ := hdoubled
  exact ⟨s, hdecode, hhandles, hother, (hread _ s [] hdecode).2 []⟩

end Record
end Checkpointing
