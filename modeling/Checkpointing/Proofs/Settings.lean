import Checkpointing.Proofs.Json.Recalling

/-!
# Settings read back

Settings that are written as JSON are read back with their durations rounded down to milliseconds.
The settings that are read back are written the same way again, and they are the settings that were
written if nothing was rounded; but an interval or a timeout below a millisecond is rounded down to
zero, which `Settings.validate` refuses.

## Main definitions

* `Settings.asWritten` is what is left of settings in their written form.
* `Settings.Fits` says that the counts in settings fit their words.

## Main results

* `Reader.recalls_settings`: settings are read back as they were written.
* `Settings.reads_back`: what this keeps of them.
-/

namespace Checkpointing

namespace Duration

/-- A duration of whole milliseconds that a word counts. -/
def IsWritable (d : Duration) : Prop := ∃ n ≤ Word.max64, d = ofMillis n

theorem writtenMillis_le (d : Duration) : d.writtenMillis ≤ Word.max64 := Nat.min_le_right _ _

theorem writtenMillis_ofMillis {n : Nat} (h : n ≤ Word.max64) : (ofMillis n).writtenMillis = n := by
  rw [writtenMillis, millis_ofMillis, Nat.min_eq_left h]

/-- Rounding a second time changes nothing. -/
theorem writtenMillis_ofMillis_writtenMillis (d : Duration) :
    (ofMillis d.writtenMillis).writtenMillis = d.writtenMillis :=
  writtenMillis_ofMillis d.writtenMillis_le

theorem ofMillis_writtenMillis {d : Duration} (h : d.IsWritable) :
    ofMillis d.writtenMillis = d := by
  obtain ⟨n, hn, rfl⟩ := h
  rw [writtenMillis_ofMillis hn]

/-- A duration is not rounded down to zero if it is at least a millisecond. -/
theorem ofMillis_writtenMillis_ne_zero (d : Duration) :
    ofMillis d.writtenMillis ≠ 0 ↔ ofMillis 1 ≤ d := by
  simp [ofMillis, writtenMillis, millis, Word.max64]

end Duration

namespace Settings

/-- What the written form keeps of settings: their durations are rounded down to milliseconds. -/
def asWritten (s : Settings) : Settings :=
  { s with
    interval := .ofMillis s.interval.writtenMillis
    timeout := .ofMillis s.timeout.writtenMillis
    minPause := .ofMillis s.minPause.writtenMillis }

/-- The counts fit the words that hold them. -/
structure Fits (s : Settings) : Prop where
  maxConcurrent : s.maxConcurrent ≤ Word.max64
  maxRetained : s.maxRetained ≤ Word.max64
  tolerableFailures : ∀ n ∈ s.tolerableFailures, n ≤ Word.max32

/-- All durations are whole milliseconds that a word counts. -/
structure IsWritable (s : Settings) : Prop where
  interval : s.interval.IsWritable
  timeout : s.timeout.IsWritable
  minPause : s.minPause.IsWritable

/-- The written form is the same as before. -/
theorem json_asWritten (s : Settings) : s.asWritten.json = s.json := by
  simp [json, asWritten, Duration.json, Duration.writtenMillis_ofMillis_writtenMillis]

theorem asWritten_of_isWritable {s : Settings} (h : s.IsWritable) : s.asWritten = s := by
  simp [asWritten, Duration.ofMillis_writtenMillis, h.interval, h.timeout, h.minPause]

theorem validate_eq_ok_iff (s : Settings) :
    s.validate = .ok () ↔
      s.interval ≠ 0 ∧ s.timeout ≠ 0 ∧ s.maxConcurrent ≠ 0 ∧ s.maxRetained ≠ 0 := by
  unfold validate
  split_ifs <;> simp_all

/-- Valid settings are valid as written if their interval and timeout last a millisecond. -/
theorem validate_asWritten (s : Settings) :
    s.asWritten.validate = .ok () ↔
      s.validate = .ok () ∧ .ofMillis 1 ≤ s.interval ∧ .ofMillis 1 ≤ s.timeout := by
  have hne : ∀ {d : Duration}, .ofMillis 1 ≤ d → d ≠ 0 := fun h =>
    Nat.ne_of_gt (Nat.lt_of_lt_of_le (by decide) h)
  rw [validate_eq_ok_iff, validate_eq_ok_iff]
  simp only [asWritten, Duration.ofMillis_writtenMillis_ne_zero]
  constructor
  · rintro ⟨hinterval, htimeout, hcounts⟩
    exact ⟨⟨hne hinterval, hne htimeout, hcounts⟩, hinterval, htimeout⟩
  · rintro ⟨⟨-, -, hcounts⟩, hinterval, htimeout⟩
    exact ⟨hinterval, htimeout, hcounts⟩

end Settings

namespace Reader

theorem recalls_duration (d : Duration) : Recalls duration d.json (.ofMillis d.writtenMillis) := by
  intro f gap rest hgap hrest
  have hcount := recalls_count d.writtenMillis_le le_rfl f gap rest hgap hrest
  simp only [duration, count64, Duration.json, hcount, Except.map]

theorem recalls_retentionMode (m : RetentionMode) : Recalls retentionMode (.text m.name) m :=
  recalls_choice (by cases m <;> decide)

theorem recalls_claimMode (m : ClaimMode) : Recalls claimMode (.text m.name) m :=
  recalls_choice (by cases m <;> decide)

/-- Settings are read back as they were written. -/
theorem recalls_settings {s : Settings} (h : s.Fits) : Recalls settings s.json s.asWritten := by
  have hfailures := recalls_nullable_count h.tolerableFailures (by decide)
  refine recalls_record ?_ (by decide) true
  simp only [List.map_cons, List.map_nil]
  exact .optional (recalls_duration s.interval) <|
    .optional (recalls_duration s.timeout) <|
    .optional (recalls_duration s.minPause) <|
    .optional (recalls_count h.maxConcurrent le_rfl) <|
    .optional (recalls_count h.maxRetained le_rfl) <|
    .optional hfailures <|
    .optional (recalls_retentionMode s.retention) <|
    .optional (recalls_claimMode s.claimMode) (.nil _)

end Reader

namespace Settings

/-- Settings that were written as JSON, on one line or over several, are read back with the same
written form.  They are valid if they were valid with an interval and a timeout of at least a
millisecond, and the same settings if their durations are whole milliseconds. -/
theorem reads_back (s : Settings) (h : s.Fits) :
    ∃ r : Settings, Reader.run Reader.settings s.json.compact = .ok r ∧
      Reader.run Reader.settings s.json.pretty = .ok r ∧ r.json = s.json ∧
      (r.validate = .ok () ↔
        s.validate = .ok () ∧ .ofMillis 1 ≤ s.interval ∧ .ofMillis 1 ≤ s.timeout) ∧
      (s.IsWritable → r = s) := by
  obtain ⟨hcompact, hpretty⟩ := (Reader.recalls_settings h).run
  exact ⟨s.asWritten, hcompact, hpretty, s.json_asWritten, s.validate_asWritten,
    asWritten_of_isWritable⟩

/-- An interval of a millisecond and a half, and a timeout of more milliseconds than a word
counts. -/
def uneven : Settings :=
  { default with
    interval := .ofMicros 1500
    timeout := .ofMillis (2 * Word.max64)
    tolerableFailures := some Word.max32 }

/-- Both durations are cut, and what is left is valid. -/
theorem reads_back_uneven :
    uneven.Fits ∧ ∃ r : Settings, Reader.run Reader.settings uneven.json.compact = .ok r ∧
      Reader.run Reader.settings uneven.json.pretty = .ok r ∧ r.json = uneven.json ∧
      r.validate = .ok () := by
  have hfits : uneven.Fits :=
    ⟨by decide, by decide, fun n hn => (Option.some.inj hn).symm.le⟩
  obtain ⟨r, hcompact, hpretty, hjson, hvalid, -⟩ := reads_back uneven hfits
  exact ⟨hfits, r, hcompact, hpretty, hjson, hvalid.mpr ⟨rfl, by decide, by decide⟩⟩

/-- An interval of half a millisecond. -/
def brief : Settings := { default with interval := .ofMicros 500 }

/-- The settings are valid, but are read back without an interval and then refused. -/
theorem refused_when_read_back :
    brief.validate = .ok () ∧ Reader.run Reader.settings brief.json.compact = .ok brief.asWritten ∧
      brief.asWritten.validate = .error (.invalidSettings .zeroInterval) := by
  have hfits : brief.Fits := ⟨by decide, by decide, fun n hn => nomatch hn⟩
  exact ⟨rfl, (Reader.recalls_settings hfits).run.1, rfl⟩

end Settings

end Checkpointing
