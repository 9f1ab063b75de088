/-!
# Names of options

An option's value may be written with blanks around it, in either case, and with hyphens or
underscores.  `OptionName.normalize` brings every such spelling to one form: no blanks around,
ASCII letters in upper case, underscores for hyphens.
-/

namespace Checkpointing

namespace OptionName

/-- A character with the Unicode property White_Space. -/
def isBlank (c : Char) : Bool :=
  let n := c.toNat
  (9 ≤ n && n ≤ 13) || n == 0x20 || n == 0x85 || n == 0xA0 || n == 0x1680 ||
    (0x2000 ≤ n && n ≤ 0x200A) || n == 0x2028 || n == 0x2029 || n == 0x202F || n == 0x205F ||
    n == 0x3000

/-- The text without the blanks at either end. -/
def trim (cs : List Char) : List Char :=
  ((cs.dropWhile isBlank).reverse.dropWhile isBlank).reverse

/-- The one spelling of a character: hyphens are underscores and ASCII letters are capitals. -/
def fold (c : Char) : Char :=
  if c = '-' then '_' else c.toUpper

/-- The one form of all spellings of a name. -/
def normalize (s : String) : String :=
  String.ofList ((trim s.toList).map fold)

end OptionName

end Checkpointing
