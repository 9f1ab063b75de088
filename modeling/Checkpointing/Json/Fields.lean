import Checkpointing.Json.Scanner

/-!
# Readers of typed values

Readers for the kinds of values that records are made of, and for records themselves: objects whose
members are known by name, or arrays of the same values in order.

## Main definitions

* `Reader.whole`, `flag`, `string` and `nullable` read single values.
* `Reader.choice` reads one of several names, `Reader.variant` a name with what belongs to it.
* `Reader.record` reads a record, given its `Field`s.
-/

namespace Checkpointing

namespace Reader

variable {α : Type}

/-! ### Single values -/

/-- Reads a whole number within bounds. -/
def whole (least greatest : Int) : Reader Int := fun cs =>
  match skipBlanks cs with
  | [] => .error .endOfInput
  | c :: rest =>
    if c = '-' ∨ c.isDigit then do
      let (j, rest) ← number (c :: rest)
      match j with
      | .whole i => if least ≤ i ∧ i ≤ greatest then .ok (i, rest) else .error .mismatched
      | _ => .error .mismatched
    else refuse (c :: rest)

/-- Reads a count up to `greatest`. -/
def count (greatest : Nat) : Reader Nat := fun cs =>
  (whole 0 greatest cs).map fun (i, rest) => (i.toNat, rest)

/-- Reads a signed 64-bit integer. -/
def signed : Reader Int := whole Word.minSigned Word.maxSigned

/-- Reads a boolean. -/
def flag : Reader Bool := fun cs =>
  match skipBlanks cs with
  | [] => .error .endOfInput
  | 't' :: rest => (word ['r', 'u', 'e'] rest).map fun rest => (true, rest)
  | 'f' :: rest => (word ['a', 'l', 's', 'e'] rest).map fun rest => (false, rest)
  | cs => refuse cs

/-- Reads a text. -/
def string : Reader String := fun cs =>
  match skipBlanks cs with
  | [] => .error .endOfInput
  | '"' :: rest => (textBody true rest).map fun (s, rest) => (String.ofList s, rest)
  | cs => refuse cs

/-- Reads `null`. -/
def nothing : Reader Unit := fun cs =>
  match skipBlanks cs with
  | [] => .error .endOfInput
  | 'n' :: rest => (word ['u', 'l', 'l'] rest).map fun rest => ((), rest)
  | cs => refuse cs

/-- Reads a value or `null`. -/
def nullable (read : Reader α) : Reader (Option α) := fun cs =>
  match skipBlanks cs with
  | 'n' :: rest => (word ['u', 'l', 'l'] rest).map fun rest => (none, rest)
  | cs => (read cs).map fun (a, rest) => (some a, rest)

/-- Reads an array. -/
def list (read : Reader α) : Reader (List α) := fun cs =>
  match skipBlanks cs with
  | [] => .error .endOfInput
  | '[' :: rest => elements read rest
  | cs => refuse cs

/-! ### Names and variants -/

/-- What a variant's name is followed by: nothing, or a value of its own. -/
inductive Payload (α : Type) where
  | plain (a : α)
  | carrying (read : Reader α)

/-- Reads the key of a member, which has to be a text: anything else is no JSON there. -/
def key : Reader String := fun cs =>
  match skipBlanks cs with
  | [] => .error .endOfInput
  | '"' :: rest => string ('"' :: rest)
  | _ => .error .malformed

/-- Reads a variant: its name alone if it is plain, or an object with its name as the only member,
whose value is `null` if the variant is plain. -/
def variant (payload? : String → Option (Payload α)) : Reader α := fun cs =>
  let named (name : String) : Except ReadFault (Payload α) :=
    match payload? name with
    | none => .error .mismatched
    | some p => .ok p
  match skipBlanks cs with
  | [] => .error .endOfInput
  | '"' :: _ => do
    let (name, rest) ← string cs
    match ← named name with
    | .plain a => .ok (a, rest)
    | .carrying _ => .error .mismatched
  | '{' :: rest => do
    let (name, rest) ← key rest
    let payload ← named name
    let rest ← colon rest
    let (a, rest) ← match payload with
      | .plain a => (nothing rest).map fun (_, rest) => (a, rest)
      | .carrying read => read rest
    match skipBlanks rest with
    | [] => .error .endOfInput
    | '}' :: rest => .ok (a, rest)
    | _ => .error .malformed
  | _ => .error .malformed

/-- Reads one of several values by its name. -/
def choice (name : α → String) (all : List α) : Reader α :=
  variant fun s => (all.find? fun a => name a == s).map .plain

/-! ### Records -/

/-- A field of a record: its name, whether it has to be there, and how its value is read into the
record. -/
structure Field (α : Type) where
  name : String
  required : Bool
  read : α → Reader α

/-- A field that holds a value of type `β`. -/
def field {β : Type} (name : String) (read : Reader β) (set : α → β → α) : Field α where
  name := name
  required := true
  read a cs := (read cs).map fun (b, rest) => (set a b, rest)

/-- The same field, which may be missing. -/
def Field.optional (f : Field α) : Field α := { f with required := false }

/-- How the value of a name is read: a field may be given once, and other names are passed over. -/
def acceptField (fields : List (Field α)) (name : String) (s : α × List String) :
    Except ReadFault (Reader (α × List String)) :=
  match fields.find? fun f => f.name == name with
  | none => .ok fun cs => (skip cs).map fun (_, rest) => (s, rest)
  | some f =>
    if s.2.contains name then .error .mismatched
    else .ok fun cs => (f.read s.1 cs).map fun (a, rest) => ((a, name :: s.2), rest)

/-- Reads the fields in order, as the elements of an array.  With `padded` the array may end
early. -/
def fieldsInOrder (padded : Bool) : Bool → List (Field α) → α → Reader α
  | _, [], a, cs =>
    match skipBlanks cs with
    | [] => .error .endOfInput
    | ']' :: rest => .ok (a, rest)
    | _ => .error .malformed
  | first, f :: fields, a, cs =>
    match skipBlanks cs with
    | [] => .error .endOfInput
    | ']' :: rest =>
      if padded then fieldsInOrder padded first fields a (']' :: rest) else .error .mismatched
    | c :: rest =>
      if !first && c ≠ ',' then .error .malformed
      else
        let element := skipBlanks (if first then c :: rest else rest)
        match element with
        | [] => .error .endOfInput
        | ']' :: _ => .error .malformed
        | _ => do
          let (a, rest) ← f.read a element
          fieldsInOrder padded false fields a rest

/-- Reads a record.  Fields that are missing keep their value in `blank`; with `padded` an array may
end before the last field. -/
def record (padded : Bool) (fields : List (Field α)) (blank : α) : Reader α := fun cs =>
  match skipBlanks cs with
  | [] => .error .endOfInput
  | '{' :: rest => do
    let ((a, seen), rest) ← members true (acceptField fields) (blank, []) rest
    if fields.all fun f => !f.required || seen.contains f.name then .ok (a, rest)
    else .error .mismatched
  | '[' :: rest => fieldsInOrder padded true fields blank rest
  | cs => refuse cs

end Reader

end Checkpointing
