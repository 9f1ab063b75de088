import Checkpointing.Json.Basic
import Checkpointing.Word

/-!
# Scanning JSON

Reading JSON text from the front of a list of characters.  A reader answers the value and what
follows it, or the first fault.  Text that is kept is checked in full; text that is only skipped is
checked for its form alone: the range of its numbers and the pairing of its surrogate escapes do
not matter there.

## Main definitions

* `ReadFault` tells text that ends too early from text that is malformed and from a value of
  another kind than wanted.
* `Reader`, with `textBody`, `number`, `members` and `elements` for the parts of the grammar.
* `valueWithin` reads any value up to a depth of nesting, `skip` passes over one.
-/

namespace Checkpointing

/-- Why text cannot be read as the value that is wanted. -/
inductive ReadFault where
  /-- The text ends inside the value. -/
  | endOfInput
  /-- The text is not JSON, or holds a number out of all range. -/
  | malformed
  /-- The value is of another kind or out of range, or a field is missing or given twice. -/
  | mismatched
deriving Repr, DecidableEq

/-- Reads a value from the front of the characters and answers what follows. -/
abbrev Reader (α : Type) := List Char → Except ReadFault (α × List Char)

namespace Reader

/-! ### Characters -/

/-- The four blanks of JSON. -/
def isBlank (c : Char) : Bool := c == ' ' || c == '\n' || c == '\t' || c == '\r'

/-- What follows the blanks at the front. -/
def skipBlanks (cs : List Char) : List Char := cs.dropWhile isBlank

/-- Expects a word letter by letter. -/
def word : List Char → List Char → Except ReadFault (List Char)
  | [], cs => .ok cs
  | _ :: _, [] => .error .endOfInput
  | w :: ws, c :: cs => if c = w then word ws cs else .error .malformed

/-- Expects the colon between a name and its value. -/
def colon (cs : List Char) : Except ReadFault (List Char) :=
  match skipBlanks cs with
  | [] => .error .endOfInput
  | ':' :: rest => .ok rest
  | _ => .error .malformed

/-! ### Texts -/

/-- The value of a hexadecimal digit. -/
def hexValue? (c : Char) : Option Nat :=
  if c.isDigit then some (c.toNat - 48)
  else if 'a' ≤ c ∧ c ≤ 'f' then some (c.toNat - 87)
  else if 'A' ≤ c ∧ c ≤ 'F' then some (c.toNat - 55)
  else none

/-- The number that four hexadecimal digits write. -/
def hexNumber? (a b c d : Char) : Option Nat := do
  return (← hexValue? a) * 4096 + (← hexValue? b) * 256 + (← hexValue? c) * 16 + (← hexValue? d)

/-- The character that a one-letter escape stands for. -/
def escape? (c : Char) : Option Char :=
  if c = '"' ∨ c = '\\' ∨ c = '/' then some c
  else if c = 'b' then some '\x08'
  else if c = 'f' then some '\x0c'
  else if c = 'n' then some '\n'
  else if c = 'r' then some '\r'
  else if c = 't' then some '\t'
  else none

/-- What is wrong when fewer than four characters are left for four digits: too few bytes are an
early end, enough bytes hold a character that is no digit. -/
def shortHex (cs : List Char) : ReadFault :=
  if (String.ofList cs).utf8ByteSize < 4 then .endOfInput else .malformed

/-- A code unit that starts a surrogate pair. -/
def isLeading (n : Nat) : Bool := 0xD800 ≤ n && n ≤ 0xDBFF

/-- A code unit that ends a surrogate pair. -/
def isTrailing (n : Nat) : Bool := 0xDC00 ≤ n && n ≤ 0xDFFF

/-- The character of a surrogate pair. -/
def pairChar (leading trailing : Nat) : Char :=
  Char.ofNat (0x10000 + (leading - 0xD800) * 0x400 + (trailing - 0xDC00))

/-- Puts a character in front of the text that is read. -/
def cons (c : Char) : Except ReadFault (List Char × List Char) →
    Except ReadFault (List Char × List Char)
  | .ok (s, rest) => .ok (c :: s, rest)
  | .error e => .error e

/-- Reads the characters of a text up to its closing quote. -/
def textBody (checked : Bool) : Reader (List Char)
  | [] => .error .endOfInput
  | '"' :: rest => .ok ([], rest)
  | ['\\'] => .error .endOfInput
  | '\\' :: 'u' :: a :: b :: c :: d :: rest =>
    match hexNumber? a b c d with
    | none => .error .malformed
    | some n =>
      if !checked || !(isLeading n || isTrailing n) then cons (Char.ofNat n) (textBody checked rest)
      else if isTrailing n then .error .malformed
      else
        match rest with
        | '\\' :: 'u' :: e :: f :: g :: h :: rest =>
          match hexNumber? e f g h with
          | none => .error .malformed
          | some m =>
            if isTrailing m then cons (pairChar n m) (textBody checked rest)
            else .error .malformed
        | '\\' :: 'u' :: rest => .error (shortHex rest)
        | [] | ['\\'] => .error .endOfInput
        | _ => .error .malformed
  | '\\' :: 'u' :: rest => .error (shortHex rest)
  | '\\' :: c :: rest =>
    match escape? c with
    | none => .error .malformed
    | some e => cons e (textBody checked rest)
  | c :: rest => if c.toNat < 32 then .error .malformed else cons c (textBody checked rest)

/-! ### Numbers -/

/-- The parts of a written number. -/
structure NumberText where
  negative : Bool
  whole : List Char
  /-- The digits after the point. -/
  fraction : List Char
  /-- Whether the exponent is negative, and its digits. -/
  exponent : Option (Bool × List Char)
  /-- There is a point or an exponent. -/
  isReal : Bool
deriving Repr, DecidableEq

/-- Reads at least one digit. -/
def digits (atEnd : ReadFault) : Reader (List Char)
  | [] => .error atEnd
  | c :: cs =>
    if c.isDigit then .ok (c :: cs.takeWhile Char.isDigit, cs.dropWhile Char.isDigit)
    else .error .malformed

/-- Reads the digits before the point; a zero stands alone. -/
def wholeDigits (atEnd : ReadFault) : Reader (List Char)
  | '0' :: c :: cs => if c.isDigit then .error .malformed else .ok (['0'], c :: cs)
  | cs => digits atEnd cs

/-- Reads the digits after a point, if there is one. -/
def fractionDigits (atEnd : ReadFault) : Reader (List Char)
  | '.' :: cs => digits atEnd cs
  | cs => .ok ([], cs)

/-- Reads the sign of an exponent and its digits. -/
def signedDigits (atEnd : ReadFault) : Reader (Bool × List Char)
  | '+' :: cs => (digits atEnd cs).map fun (d, rest) => ((false, d), rest)
  | '-' :: cs => (digits atEnd cs).map fun (d, rest) => ((true, d), rest)
  | cs => (digits atEnd cs).map fun (d, rest) => ((false, d), rest)

/-- Reads an exponent, if there is one. -/
def exponentDigits (atEnd : ReadFault) : Reader (Option (Bool × List Char))
  | c :: cs =>
    if c = 'e' ∨ c = 'E' then (signedDigits atEnd cs).map fun (e, rest) => (some e, rest)
    else .ok (none, c :: cs)
  | [] => .ok (none, [])

/-- Reads the parts of a number.  `atEnd` is the fault if the text ends where a digit has to
stand. -/
def numberText (atEnd : ReadFault) (cs : List Char) : Except ReadFault (NumberText × List Char) :=
  let (negative, cs) := match cs with
    | '-' :: rest => (true, rest)
    | _ => (false, cs)
  (wholeDigits atEnd cs).bind fun (whole, cs) =>
  (fractionDigits atEnd cs).bind fun (fraction, cs) =>
  (exponentDigits atEnd cs).map fun (exponent, cs) =>
    (⟨negative, whole, fraction, exponent, !fraction.isEmpty || exponent.isSome⟩, cs)

/-- The value of a digit. -/
def digitValue (c : Char) : Nat := c.toNat - 48

/-- The number that digits write. -/
def digitsValue (ds : List Char) : Nat := ds.foldl (fun n c => 10 * n + digitValue c) 0

/-- Takes digits into a 64-bit significand as long as it has room, and counts those taken. -/
def significand (n taken : Nat) : List Char → Nat × Nat
  | [] => (n, taken)
  | c :: cs =>
    if 10 * n + digitValue c ≤ Word.max64 then significand (10 * n + digitValue c) (taken + 1) cs
    else (n, taken)

/-- The power of ten with exponent at most 308. -/
def powerOfTen (e : Nat) : Float := Float.ofScientific 1 false e

/-- Multiplies by a power of ten; a number beyond the largest float is a fault. -/
def scale (f : Float) (e : Int) : Except ReadFault Float :=
  if h : e < -308 then
    if f == 0 then .ok f else scale (f / powerOfTen 308) (e + 308)
  else if e < 0 then .ok (f / powerOfTen (-e).toNat)
  else if 308 < e then if f == 0 then .ok f else .error .malformed
  else
    let g := f * powerOfTen e.toNat
    if g.isInf then .error .malformed else .ok g
termination_by (-e).toNat
decreasing_by omega

/-- The float that a number with point or exponent, or too long for a word, stands for. -/
def NumberText.real (t : NumberText) : Except ReadFault Float :=
  let (n, taken) := significand 0 0 t.whole
  let (n, places) := significand n 0 t.fraction
  let start : Int := t.whole.length - taken - places
  let f := (UInt64.ofNat n).toFloat
  let magnitude :=
    match t.exponent with
    | none => scale f start
    | some (negative, ds) =>
      if 2147483648 ≤ digitsValue ds then
        if negative || n == 0 then .ok 0 else .error .malformed
      else scale f (if negative then start - digitsValue ds else start + digitsValue ds)
  magnitude.map fun g => if t.negative then -g else g

/-- The value of a written number: whole if it is written so and a word holds it. -/
def NumberText.value (t : NumberText) : Except ReadFault Json :=
  let n := digitsValue t.whole
  if t.isReal || Word.max64 < n then t.real.map .real
  else if !t.negative then .ok (.whole n)
  else if n = 0 || 9223372036854775808 < n then .ok (.real (-(UInt64.ofNat n).toFloat))
  else .ok (.whole (-n))

/-- Reads a number. -/
def number (cs : List Char) : Except ReadFault (Json × List Char) :=
  (numberText .endOfInput cs).bind fun (t, rest) => t.value.map fun j => (j, rest)

/-! ### Objects and arrays -/

/-- Reads the members of an object from a first name up to the closing brace.  `accept` answers
how to read the value of a name, or refuses the name. -/
def membersFrom {σ : Type} (checked : Bool) (accept : String → σ → Except ReadFault (Reader σ)) :
    Nat → σ → Reader σ
  | 0, _, _ => .error .malformed
  | fuel + 1, s, cs =>
    match skipBlanks cs with
    | [] => .error .endOfInput
    | '"' :: rest => do
      let (name, rest) ← textBody checked rest
      let read ← accept (String.ofList name) s
      let rest ← colon rest
      let (s, rest) ← read rest
      match skipBlanks rest with
      | [] => .error .endOfInput
      | '}' :: rest => .ok (s, rest)
      | ',' :: rest => membersFrom checked accept fuel s rest
      | _ => .error .malformed
    | _ => .error .malformed

/-- Reads the members of an object after its opening brace. -/
def members {σ : Type} (checked : Bool) (accept : String → σ → Except ReadFault (Reader σ))
    (s : σ) : Reader σ := fun cs =>
  match skipBlanks cs with
  | '}' :: rest => .ok (s, rest)
  | _ => membersFrom checked accept (cs.length + 1) s cs

/-- Reads the elements of an array from a first one up to the closing bracket. -/
def elementsFrom {α : Type} (read : Reader α) : Nat → Reader (List α)
  | 0, _ => .error .malformed
  | fuel + 1, cs => do
    let (a, rest) ← read cs
    match skipBlanks rest with
    | [] => .error .endOfInput
    | ']' :: rest => .ok ([a], rest)
    | ',' :: rest => do
      let (as, rest) ← elementsFrom read fuel rest
      .ok (a :: as, rest)
    | _ => .error .malformed

/-- Reads the elements of an array after its opening bracket. -/
def elements {α : Type} (read : Reader α) : Reader (List α) := fun cs =>
  match skipBlanks cs with
  | ']' :: rest => .ok ([], rest)
  | _ => elementsFrom read (cs.length + 1) cs

/-! ### Any value -/

/-- Reads any value; arrays and objects are nested at most `depth` deep. -/
def valueWithin (checked : Bool) : Nat → Reader Json := fun depth cs =>
  match skipBlanks cs with
  | [] => .error .endOfInput
  | 'n' :: rest => (word ['u', 'l', 'l'] rest).map fun rest => (.null, rest)
  | 't' :: rest => (word ['r', 'u', 'e'] rest).map fun rest => (.bool true, rest)
  | 'f' :: rest => (word ['a', 'l', 's', 'e'] rest).map fun rest => (.bool false, rest)
  | '"' :: rest => (textBody checked rest).map fun (s, rest) => (.text (String.ofList s), rest)
  | '[' :: rest =>
    match depth with
    | 0 => .error .malformed
    | depth + 1 =>
      (elements (valueWithin checked depth) rest).map fun (js, rest) => (.array js, rest)
  | '{' :: rest =>
    match depth with
    | 0 => .error .malformed
    | depth + 1 =>
      let accept := fun (name : String) (fields : List (String × Json)) =>
        Except.ok fun cs => (valueWithin checked depth cs).map fun (j, rest) =>
          (fields ++ [(name, j)], rest)
      (members checked accept [] rest).map fun (fields, rest) => (.object fields, rest)
  | c :: rest =>
    if c = '-' ∨ c.isDigit then
      if checked then number (c :: rest)
      else (numberText .malformed (c :: rest)).map fun (_, rest) => (.null, rest)
    else .error .malformed

/-- Passes over a value of any depth. -/
def skip : Reader Unit := fun cs =>
  (valueWithin false cs.length cs).map fun (_, rest) => ((), rest)

/-- Refuses the value at the front, which is not of the kind that is wanted; a fault in its text
comes first. -/
def refuse {α : Type} : Reader α := fun cs =>
  match skipBlanks cs with
  | '[' :: _ | '{' :: _ => .error .mismatched
  | cs =>
    match valueWithin true 0 cs with
    | .error e => .error e
    | .ok _ => .error .mismatched

/-- Reads a whole text: a value with nothing but blanks after it. -/
def run {α : Type} (read : Reader α) (text : String) : Except ReadFault α := do
  let (a, rest) ← read text.toList
  if (skipBlanks rest).isEmpty then .ok a else .error .malformed

end Reader

end Checkpointing
