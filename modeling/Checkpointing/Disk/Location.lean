/-!
# Locations

A path is the list of names that leads from the working directory to a file or directory, without
detours.  A location is a path together with the text that it is shown as, since the same path can
be written in several ways and messages repeat the way it was written.

The way a path is written rarely matters for what can be done there: only if it makes detours or is
about as long as paths may be.  A location tells so.
-/

namespace Checkpointing

/-- The names that lead from the working directory to a file or directory.  A path that leaves the
working directory starts with `..`, once for each level, or with `/`, the root. -/
abbrev Path := List String

namespace Path

/-- Whether a path leads to the working directory or to one that it lies in. -/
def isAbove (p : Path) : Bool := p.all fun name => name == ".." || name == "/"

/-- The directory that a directory lies in; the root lies in itself. -/
def parent (p : Path) : Path :=
  match p.getLast? with
  | none | some ".." => p ++ [".."]
  | some "/" => p
  | some _ => p.dropLast

end Path

/-- A path and the text that it is shown as. -/
structure Location where
  shown : String
  path : Path
  /-- The directories that the text enters and leaves again by `..`, which have to be there when
  the location is used.  Absent if there are none and the text is short, so that it does not matter
  how the path is written. -/
  detours : Option (List Path)
deriving Repr, DecidableEq

namespace Location

/-- The location of the entry `name` of a directory. -/
def child (l : Location) (name : String) : Location where
  shown := if l.shown = "" ∨ l.shown.endsWith "/" then l.shown ++ name else l.shown ++ "/" ++ name
  path := l.path ++ [name]
  detours := l.detours

@[simp]
theorem path_child (l : Location) (name : String) : (l.child name).path = l.path ++ [name] := rfl

@[simp]
theorem detours_child (l : Location) (name : String) : (l.child name).detours = l.detours := rfl

end Location

end Checkpointing
