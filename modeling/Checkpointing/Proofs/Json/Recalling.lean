import Checkpointing.Proofs.Json.Scanning
import Mathlib.Data.List.Nodup

/-!
# Reading back written values

A reader recalls a value from a JSON value if it finds it in each of the JSON value's written
forms, at any place in a text: behind blanks, and in front of anything that does not go on with a
number.  Readers of records recall what the readers of their fields recall.

## Main definitions

* `Json.Form` is a written form: on one line, or over several from a level of indentation on.
* `Reader.Recalls` says that a reader finds a value in every form of a JSON value.
* `Reader.Fills` says that the fields of a record are recalled one after another.

## Main results

* `Reader.recalls_count`, `recalls_choice` and `Recalls.nullable` are about single values.
* `Reader.recalls_record` is about records.
* `Reader.Recalls.run` reads whole texts.
-/

namespace Checkpointing

namespace Json

/-! ### Written forms -/

/-- A written form of JSON values. -/
inductive Form where
  /-- On one line. -/
  | compact
  /-- Over several lines, at a level of indentation. -/
  | pretty (level : Nat)

namespace Form

/-- The characters of a value in this form. -/
def text : Form → Json → List Char
  | compact, j => j.compact.toList
  | pretty level, j => (j.prettyAt level).toList

/-- The form of the values inside an object. -/
def inner : Form → Form
  | compact => compact
  | pretty level => pretty (level + 1)

/-- The blanks in front of a field. -/
def beforeField : Form → List Char
  | compact => []
  | pretty level => '\n' :: List.replicate (2 * (level + 1)) ' '

/-- The blanks in front of the value of a field. -/
def beforeValue : Form → List Char
  | compact => []
  | pretty _ => [' ']

/-- The blanks in front of the closing brace. -/
def beforeBrace : Form → List Char
  | compact => []
  | pretty level => '\n' :: List.replicate (2 * level) ' '

/-- A field with the blanks around it. -/
def fieldText (f : Form) (field : String × Json) : List Char :=
  f.beforeField ++ '"' :: (field.1.toList.flatMap escaped ++
    '"' :: ':' :: (f.beforeValue ++ f.inner.text field.2))

/-- Fields behind one another. -/
def fieldsText (f : Form) (fields : List (String × Json)) : List Char :=
  [','].intercalate (fields.map f.fieldText)

theorem fieldsText_singleton (f : Form) (field : String × Json) :
    f.fieldsText [field] = f.fieldText field := by
  simp [fieldsText]

theorem fieldsText_cons_cons (f : Form) (field next : String × Json)
    (fields : List (String × Json)) :
    f.fieldsText (field :: next :: fields) =
      f.fieldText field ++ ',' :: f.fieldsText (next :: fields) := by
  simp [fieldsText, List.intercalate_cons_cons]

theorem length_le_fieldsText (f : Form) (fields : List (String × Json)) :
    fields.length ≤ (f.fieldsText fields).length := by
  induction fields with
  | nil => simp
  | cons field fields ih =>
    cases fields with
    | nil => simp [fieldsText_singleton, fieldText]; omega
    | cons next fields =>
      rw [fieldsText_cons_cons]
      simp only [List.length_cons, List.length_append] at ih ⊢
      omega

theorem map_toList_compactFields (fields : List (String × Json)) :
    (compactFields fields).map String.toList = fields.map compact.fieldText := by
  induction fields with
  | nil => simp [compactFields]
  | cons field fields ih =>
    simp [compactFields, ih, fieldText, quoted, text, inner, beforeField, beforeValue]

theorem toList_pushn (c : Char) (n : Nat) : ("".pushn c n).toList = List.replicate n c := by
  induction n with
  | zero => rfl
  | succ n ih => exact (String.toList_push c).trans (by rw [List.replicate_succ', ← ih]; rfl)

theorem map_toList_prettyFields (level : Nat) (fields : List (String × Json)) :
    (prettyFields (level + 1) fields).map
        (fun p => '\n' :: ("".pushn ' ' (2 * (level + 1)) ++ p).toList) =
      fields.map (pretty level).fieldText := by
  induction fields with
  | nil => simp [prettyFields]
  | cons field fields ih =>
    simp only [String.toList_append, toList_pushn] at ih
    simp [prettyFields, ih, fieldText, quoted, text, inner, beforeField, beforeValue, toList_pushn]

/-- A line break in front of each part may stand behind the commas between the parts. -/
theorem cons_intercalate {parts : List (List Char)} (h : parts ≠ []) :
    '\n' :: [',', '\n'].intercalate parts = [','].intercalate (parts.map ('\n' :: ·)) := by
  induction parts with
  | nil => contradiction
  | cons part parts ih =>
    cases parts with
    | nil => simp
    | cons next parts => simpa [List.intercalate_cons_cons] using ih (List.cons_ne_nil _ _)

/-- A block is its parts, each with the blanks in front of it, between commas. -/
theorem toList_block (level : Nat) (opening closing : String) {parts : List String}
    (h : parts ≠ []) :
    (block level opening closing parts).toList =
      opening.toList ++ [','].intercalate
        (parts.map fun p => '\n' :: ("".pushn ' ' (2 * (level + 1)) ++ p).toList) ++
          '\n' :: List.replicate (2 * level) ' ' ++ closing.toList := by
  have hne : (parts.map fun p => ("".pushn ' ' (2 * (level + 1)) ++ p).toList) ≠ [] := by
    simpa using h
  have hparts := cons_intercalate hne
  rw [List.map_map] at hparts
  have hbreaks : [',', '\n'] = ",\n".toList := rfl
  rw [block, if_neg (by simpa using h)]
  simp only [String.toList_append, String.toList_intercalate, List.map_map, toList_pushn,
    Function.comp_def, hbreaks] at hparts ⊢
  simp [← hparts]

/-- The characters of an object that has fields. -/
theorem text_object (f : Form) {fields : List (String × Json)} (h : fields ≠ []) :
    f.text (.object fields) = '{' :: (f.fieldsText fields ++ (f.beforeBrace ++ ['}'])) := by
  cases f with
  | compact =>
    simp [text, Json.compact, fieldsText, beforeBrace, String.toList_intercalate,
      map_toList_compactFields]
  | pretty level =>
    have hparts : prettyFields (level + 1) fields ≠ [] := by
      obtain ⟨field, fields, rfl⟩ := List.exists_cons_of_ne_nil h
      simp [prettyFields]
    rw [text, Json.prettyAt, toList_block level _ _ hparts, map_toList_prettyFields]
    simp [fieldsText, beforeBrace]

/-- An object without fields. -/
theorem text_object_nil (f : Form) : f.text (.object []) = ['{', '}'] := by
  cases f with
  | compact => simp [text, Json.compact, compactFields]
  | pretty level => simp [text, Json.prettyAt, prettyFields, block]

theorem text_whole (f : Form) (n : Nat) : f.text (.nat n) = Nat.toDigits 10 n := by
  have htext : (toString (n : Int)).toList = Nat.toDigits 10 n := Nat.toList_repr
  cases f <;> simpa [text, Json.compact, prettyAt, scalar, nat] using htext

theorem text_text (f : Form) (s : String) :
    f.text (.text s) = '"' :: (s.toList.flatMap escaped ++ ['"']) := by
  cases f <;> simp [text, Json.compact, prettyAt, scalar, quoted]

theorem text_null (f : Form) : f.text .null = ['n', 'u', 'l', 'l'] := by
  cases f <;> simp [text, Json.compact, prettyAt, scalar]

/-- A line break and the indentation behind it are blank. -/
theorem isBlank_of_mem_lineBreak {n : Nat} {c : Char} (h : c ∈ '\n' :: List.replicate n ' ') :
    Reader.isBlank c := by
  rcases List.mem_cons.mp h with rfl | h
  · rfl
  · rw [List.eq_of_mem_replicate h]
    rfl

theorem isBlank_of_mem_beforeField (f : Form) {c : Char} (h : c ∈ f.beforeField) :
    Reader.isBlank c := by
  cases f with
  | compact => cases h
  | pretty level => exact isBlank_of_mem_lineBreak h

theorem isBlank_of_mem_beforeValue (f : Form) {c : Char} (h : c ∈ f.beforeValue) :
    Reader.isBlank c := by
  cases f with
  | compact => cases h
  | pretty level =>
    rw [List.mem_singleton.mp h]
    rfl

theorem isBlank_of_mem_beforeBrace (f : Form) {c : Char} (h : c ∈ f.beforeBrace) :
    Reader.isBlank c := by
  cases f with
  | compact => cases h
  | pretty level => exact isBlank_of_mem_lineBreak h

end Form

end Json

namespace Reader

variable {α β σ : Type}

/-- Finds a value in every written form of a JSON value, and leaves what follows it. -/
def Recalls (read : Reader α) (j : Json) (a : α) : Prop :=
  ∀ (f : Json.Form) (gap rest : List Char), (∀ c ∈ gap, isBlank c) → EndsNumber rest →
    read (gap ++ (f.text j ++ rest)) = .ok (a, rest)

/-- A text that is a written value is read as a whole. -/
theorem Recalls.run {read : Reader α} {j : Json} {a : α} (h : Recalls read j a) :
    run read j.compact = .ok a ∧ run read j.pretty = .ok a := by
  have hcompact := h .compact [] [] (by simp) endsNumber_nil
  have hpretty := h (.pretty 0) [] [] (by simp) endsNumber_nil
  simp only [Json.Form.text, List.nil_append, List.append_nil] at hcompact hpretty
  exact ⟨by simp [Reader.run, hcompact, skipBlanks, bind, Except.bind],
    by simp [Reader.run, Json.pretty, hpretty, skipBlanks, bind, Except.bind]⟩

/-! ### Single values -/

/-- A value that starts with a character, which is no blank, in every form. -/
def StartsWith (j : Json) (c : Char) : Prop :=
  isBlank c = false ∧ ∀ f : Json.Form, ∃ cs, f.text j = c :: cs

theorem isBlank_of_isDigit {c : Char} (h : c.isDigit) : isBlank c = false := by
  by_contra hblank
  simp only [Bool.not_eq_false, isBlank, Bool.or_eq_true, beq_iff_eq] at hblank
  rcases hblank with ((rfl | rfl) | rfl) | rfl <;> exact absurd h (by decide)

/-- A count starts with a digit. -/
theorem startsWith_nat (n : Nat) : ∃ d, d.isDigit ∧ StartsWith (.nat n) d := by
  obtain ⟨d, ds, hds, hd⟩ := toDigits_eq_cons n
  exact ⟨d, hd, isBlank_of_isDigit hd, fun f => ⟨ds, by rw [Json.Form.text_whole, hds]⟩⟩

theorem recalls_count {n greatest : Nat} (hn : n ≤ greatest) (hword : greatest ≤ Word.max64) :
    Recalls (count greatest) (.nat n) n := by
  intro f gap rest hgap hrest
  obtain ⟨d, hd, hblank, hstart⟩ := startsWith_nat n
  obtain ⟨ds, hds⟩ := hstart f
  have hnumber : number (d :: (ds ++ rest)) = .ok (.whole n, rest) := by
    rw [← List.cons_append, ← hds, Json.Form.text_whole]
    exact number_toDigits (hn.trans hword) hrest
  have hwhole : whole 0 greatest (gap ++ (f.text (.nat n) ++ rest)) = .ok ((n : Int), rest) := by
    unfold whole
    rw [skipBlanks_append hgap, hds, List.cons_append, skipBlanks_cons hblank]
    simp [hd, hnumber, hn, bind, Except.bind]
  simp [count, hwhole, Except.map]

theorem recalls_string (s : String) : Recalls string (.text s) s := by
  intro f gap rest hgap hrest
  rw [Json.Form.text_text]
  unfold string
  rw [skipBlanks_append hgap]
  simp [skipBlanks_cons, isBlank, textBody_flatMap_escaped, Except.map]

/-- One of several values is found by its name if no value before it has the name. -/
theorem recalls_choice {name : α → String} {all : List α} {a : α}
    (h : all.find? (fun b => name b == name a) = some a) :
    Recalls (choice name all) (.text (name a)) a := by
  intro f gap rest hgap hrest
  have hstring := recalls_string (name a) f gap rest hgap hrest
  rw [Json.Form.text_text, List.cons_append] at hstring ⊢
  unfold choice variant
  rw [skipBlanks_append hgap, skipBlanks_cons rfl]
  simp only [hstring, h, bind, Except.bind, Option.map_some]

theorem recalls_null (read : Reader α) : Recalls (nullable read) .null none := by
  intro f gap rest hgap hrest
  rw [Json.Form.text_null]
  unfold nullable
  rw [skipBlanks_append hgap]
  simp [skipBlanks_cons, isBlank, word, Except.map]

theorem Recalls.nullable {read : Reader α} {j : Json} {a : α} {c : Char} (h : Recalls read j a)
    (hstart : StartsWith j c) (hc : c ≠ 'n') : Recalls (nullable read) j (some a) := by
  intro f gap rest hgap hrest
  obtain ⟨hblank, hstart⟩ := hstart
  obtain ⟨cs, hcs⟩ := hstart f
  have hread := h f [] rest (by simp) hrest
  rw [List.nil_append, hcs, List.cons_append] at hread
  unfold Reader.nullable
  rw [skipBlanks_append hgap, hcs, List.cons_append, skipBlanks_cons hblank]
  split
  · rename_i heq
    exact absurd (List.cons.inj heq).1 hc
  · rw [hread]
    rfl

/-- A count that may be absent. -/
theorem recalls_nullable_count {o : Option Nat} {greatest : Nat} (h : ∀ n ∈ o, n ≤ greatest)
    (hword : greatest ≤ Word.max64) :
    Recalls (Reader.nullable (count greatest)) (.ofOption .nat o) o := by
  cases o with
  | none => exact recalls_null _
  | some n =>
    obtain ⟨d, hd, hstart⟩ := startsWith_nat n
    exact (recalls_count (h n rfl) hword).nullable hstart (by rintro rfl; simp at hd)

/-! ### Objects -/

/-- Recalling the fields of an object one after another leads from one state to another. -/
inductive Takes (accept : String → σ → Except ReadFault (Reader σ)) :
    List (String × Json) → σ → σ → Prop where
  | nil (s : σ) : Takes accept [] s s
  | cons {field : String × Json} {fields : List (String × Json)} {read : Reader σ} {s t u : σ} :
    accept field.1 s = .ok read → Recalls read field.2 t → Takes accept fields t u →
      Takes accept (field :: fields) s u

variable {accept : String → σ → Except ReadFault (Reader σ)}

/-- A field is read, and then the object ends at a brace or goes on behind a comma. -/
theorem membersFrom_fieldText {field : String × Json} {read : Reader σ} {s t : σ}
    (haccept : accept field.1 s = .ok read) (hread : Recalls read field.2 t) (f : Json.Form)
    {after rest : List Char} (hafter : EndsNumber after) (fuel : Nat) :
    (skipBlanks after = '}' :: rest →
      membersFrom true accept (fuel + 1) s (f.fieldText field ++ after) = .ok (t, rest)) ∧
    (skipBlanks after = ',' :: rest →
      membersFrom true accept (fuel + 1) s (f.fieldText field ++ after) =
        membersFrom true accept fuel t rest) := by
  have hvalue := hread f.inner f.beforeValue after (fun _ => f.isBlank_of_mem_beforeValue) hafter
  rw [membersFrom, Json.Form.fieldText]
  simp only [List.append_assoc, List.cons_append]
  rw [skipBlanks_append fun _ => f.isBlank_of_mem_beforeField]
  constructor <;> intro hnext <;>
    simp [skipBlanks_cons, isBlank, textBody_flatMap_escaped, haccept, colon, hvalue, hnext, bind,
      Except.bind]

theorem endsNumber_fieldText (f : Json.Form) (after : List Char) :
    EndsNumber (f.beforeBrace ++ '}' :: after) := by
  cases f <;> simp [EndsNumber, Json.Form.beforeBrace]

/-- Reading the fields of an object recalls them one after another, up to the brace. -/
theorem membersFrom_fieldsText {fields : List (String × Json)} {s t : σ}
    (h : Takes accept fields s t) (hne : fields ≠ []) (f : Json.Form) (rest : List Char)
    {fuel : Nat} (hfuel : fields.length ≤ fuel) :
    membersFrom true accept fuel s (f.fieldsText fields ++ (f.beforeBrace ++ '}' :: rest)) =
      .ok (t, rest) := by
  induction h generalizing fuel with
  | nil => contradiction
  | @cons field fields read s t u haccept hread htail ih =>
    obtain ⟨fuel, rfl⟩ := Nat.exists_eq_add_of_lt (Nat.lt_of_lt_of_le (Nat.succ_pos _) hfuel)
    rw [Nat.zero_add]
    cases fields with
    | nil =>
      cases htail
      have hbrace : skipBlanks (f.beforeBrace ++ '}' :: rest) = '}' :: rest := by
        rw [skipBlanks_append fun _ => f.isBlank_of_mem_beforeBrace]
        rfl
      rw [Json.Form.fieldsText_singleton]
      exact (membersFrom_fieldText haccept hread f (endsNumber_fieldText f rest) fuel).1 hbrace
    | cons next fields =>
      have hcomma : EndsNumber
          (',' :: (f.fieldsText (next :: fields) ++ (f.beforeBrace ++ '}' :: rest))) := by
        simp [EndsNumber]
      rw [Json.Form.fieldsText_cons_cons, List.append_assoc, List.cons_append,
        (membersFrom_fieldText haccept hread f hcomma fuel).2 (skipBlanks_cons rfl _)]
      exact ih (List.cons_ne_nil _ _) (by simpa using hfuel)

/-- Behind its blanks, the first field starts with the quote of its name. -/
theorem skipBlanks_fieldsText (f : Json.Form) (field : String × Json)
    (fields : List (String × Json)) (after : List Char) :
    ∃ cs, skipBlanks (f.fieldsText (field :: fields) ++ after) = '"' :: cs := by
  obtain ⟨cs, hcs⟩ : ∃ cs, f.fieldsText (field :: fields) = f.beforeField ++ '"' :: cs := by
    cases fields with
    | nil => exact ⟨_, f.fieldsText_singleton field⟩
    | cons next fields =>
      rw [f.fieldsText_cons_cons, Json.Form.fieldText, List.append_assoc]
      exact ⟨_, rfl⟩
  exact ⟨cs ++ after, by
    rw [hcs, List.append_assoc, skipBlanks_append fun _ => f.isBlank_of_mem_beforeField]; rfl⟩

/-- The members of a written object are recalled one after another. -/
theorem members_text_object {fields : List (String × Json)} {s t : σ}
    (h : Takes accept fields s t) (f : Json.Form) (rest : List Char) :
    ∃ body, f.text (.object fields) = '{' :: body ∧
      members true accept s (body ++ rest) = .ok (t, rest) := by
  cases fields with
  | nil =>
    cases h
    exact ⟨['}'], f.text_object_nil, rfl⟩
  | cons field fields =>
    refine ⟨_, f.text_object (List.cons_ne_nil field fields), ?_⟩
    obtain ⟨cs, hcs⟩ := skipBlanks_fieldsText f field fields (f.beforeBrace ++ '}' :: rest)
    have hlength := f.length_le_fieldsText (field :: fields)
    simp only [List.append_assoc, List.singleton_append]
    unfold members
    rw [hcs]
    refine membersFrom_fieldsText h (List.cons_ne_nil field fields) f rest ?_
    simp only [List.length_append] at hlength ⊢
    omega

/-! ### Records -/

/-- Recalling the fields of a record one after another leads from one value to another. -/
inductive Fills : List (Field α) → List (String × Json) → α → α → Prop where
  | nil (a : α) : Fills [] [] a a
  | cons {f : Field α} {fields : List (Field α)} {j : Json} {rest : List (String × Json)}
    {a b c : α} :
    Recalls (f.read a) j b → Fills fields rest b c → Fills (f :: fields) ((f.name, j) :: rest) a c

/-- What the reader of a field recalls is put into the record, whether or not it may be missing. -/
theorem Fills.optional {read : Reader β} {set : α → β → α} {fields : List (Field α)}
    {name : String} {j : Json} {rest : List (String × Json)} {a c : α} {b : β}
    (h : Recalls read j b) (hrest : Fills fields rest (set a b) c) :
    Fills ((field name read set).optional :: fields) ((name, j) :: rest) a c := by
  refine .cons (f := (field name read set).optional) ?_ hrest
  intro f gap rest hgap hrest
  simp [Field.optional, field, h f gap rest hgap hrest, Except.map]

theorem find?_name {fields : List (Field α)} {f : Field α} (hf : f ∈ fields)
    (hnames : (fields.map Field.name).Nodup) :
    fields.find? (fun g => g.name == f.name) = some f := by
  induction fields with
  | nil => simp at hf
  | cons g fields ih =>
    rw [List.map_cons, List.nodup_cons] at hnames
    rcases List.mem_cons.mp hf with rfl | hf
    · simp
    · have hne : g.name ≠ f.name := fun heq => hnames.1 (heq ▸ List.mem_map_of_mem hf)
      rw [List.find?_cons_of_neg (by simpa using hne), ih hf hnames.2]

/-- Fields with different names are accepted once each; the names that were seen are kept. -/
theorem takes_of_fills {fields all : List (Field α)} {js : List (String × Json)} {a b : α}
    {seen : List String} (h : Fills fields js a b) (hsub : ∀ f ∈ fields, f ∈ all)
    (hall : (all.map Field.name).Nodup)
    (hnames : ((fields.map Field.name).reverse ++ seen).Nodup) :
    Takes (acceptField all) js (a, seen) (b, (fields.map Field.name).reverse ++ seen) := by
  induction h generalizing seen with
  | nil a => exact .nil _
  | @cons f fields j rest a b c hread _ ih =>
    have hf : f ∈ all := hsub f List.mem_cons_self
    rw [List.map_cons, List.reverse_cons, List.append_assoc, List.singleton_append] at hnames ⊢
    have hnew : seen.contains f.name = false := by
      simpa using (List.nodup_cons.mp (List.nodup_append.mp hnames).2.1).1
    have haccept : acceptField all f.name (a, seen) =
        .ok fun cs => (f.read a cs).map fun r => ((r.1, f.name :: seen), r.2) := by
      simp only [acceptField, find?_name hf hall, hnew, Bool.false_eq_true, if_false]
    refine .cons haccept ?_ (ih (fun g hg => hsub g (List.mem_cons_of_mem f hg)) hnames)
    intro form gap rest hgap hrest
    simp [hread form gap rest hgap hrest, Except.map]

/-- A record is recalled from an object with all of its fields in order. -/
theorem recalls_record {fields : List (Field α)} {js : List (String × Json)} {blank a : α}
    (h : Fills fields js blank a) (hnames : (fields.map Field.name).Nodup) (padded : Bool) :
    Recalls (record padded fields blank) (.object js) a := by
  intro f gap rest hgap _
  have hnew : ((fields.map Field.name).reverse ++ []).Nodup := by
    rwa [List.append_nil, List.nodup_reverse]
  have htakes := takes_of_fills h (fun _ => id) hnames hnew
  obtain ⟨body, hbody, hmembers⟩ := members_text_object htakes f rest
  rw [hbody, List.cons_append]
  unfold record
  rw [skipBlanks_append hgap, skipBlanks_cons rfl]
  simp only [hmembers, bind, Except.bind]
  have hseen : (fields.all fun g => !g.required ||
      ((fields.map Field.name).reverse ++ []).contains g.name) = true := by
    rw [List.all_eq_true]
    intro g hg
    simpa using Or.inr ⟨g, hg, rfl⟩
  rw [if_pos hseen]

end Reader

end Checkpointing
