import Checkpointing.Decimal.Count
import Checkpointing.Error
import Checkpointing.Word

/-!
# Arguments

What stands behind the name of a command: options, each given at most once as `--name value` or
`--name=value`, and switches, given as `--name` alone.

## Main definitions

* `Arguments.read?` reads the arguments of a command that knows certain options and switches.
* `Arguments.get?`, `getD?` and `require?` read the value of an option; they fail where the value
  is not understood.
-/

namespace Checkpointing

/-- The options and switches that were given, with the values of the options. -/
abbrev Arguments := List (String × Option String)

namespace Arguments

/-! ### Splitting -/

/-- What stands behind the two hyphens of an argument, and the value behind an equals sign. -/
def named? (argument : String) : Option (String × Option String) :=
  match argument.toList with
  | '-' :: '-' :: c :: cs =>
    let name := String.ofList ((c :: cs).takeWhile (· ≠ '='))
    match (c :: cs).dropWhile (· ≠ '=') with
    | [] => some (name, none)
    | _ :: value => some (name, some (String.ofList value))
  | _ => none

/-- An argument that cannot be the value of the option before it. -/
def isNamed (argument : String) : Bool := argument.startsWith "-" && argument != "-"

/-- Splits arguments into options with their values and switches. -/
def split? (options switches : List String) : List String → Option Arguments
  | [] => some []
  | argument :: rest =>
    if argument = "--" then (if rest.isEmpty then some [] else none)
    else
      match named? argument with
      | none => none
      | some (name, value) =>
        if switches.contains name then
          if value.isNone then (split? options switches rest).map ((name, none) :: ·) else none
        else if options.contains name then
          match value, rest with
          | some v, rest => (split? options switches rest).map ((name, some v) :: ·)
          | none, [] => none
          | none, v :: rest =>
            if isNamed v then none
            else (split? options switches rest).map ((name, some v) :: ·)
        else none

/-- Reads arguments; no name may come twice. -/
def read? (options switches arguments : List String) : Option Arguments :=
  (split? options switches arguments).filter fun given =>
    given.all fun (name, _) => given.countP (fun g => g.1 == name) = 1

/-! ### Values -/

/-- Whether a switch was given. -/
def has (a : Arguments) (name : String) : Bool := a.any fun g => g.1 == name

variable {α : Type}

/-- The value of an option, if the option was given. -/
def get? (a : Arguments) (name : String) (value? : String → Option α) : Option (Option α) :=
  match a.lookup name with
  | some (some text) => (value? text).map some
  | _ => some none

/-- The value of an option, or a default if it was not given. -/
def getD? (a : Arguments) (name : String) (default : α) (value? : String → Option α) : Option α :=
  (a.get? name value?).map fun v => v.getD default

/-- The value of an option that has to be given. -/
def require? (a : Arguments) (name : String) (value? : String → Option α) : Option α :=
  (a.get? name value?).join

/-- A 32-bit count. -/
def count32? (text : String) : Option Nat := Decimal.unsignedInteger? Word.max32 text.toList

/-- A 64-bit count. -/
def count64? (text : String) : Option Nat := Decimal.count? Word.max64 text.toList

/-- A written path, which is not empty. -/
def path? (text : String) : Option String := if text = "" then none else some text

/-- A name that is understood without an error. -/
def name? (parse : String → Except SnapshotError α) (text : String) : Option α :=
  (parse text).toOption

end Arguments

end Checkpointing
