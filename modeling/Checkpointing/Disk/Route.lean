import Checkpointing.Disk.Basic

/-!
# Routes

A route is a path as somebody writes it: names between slashes, which may also be empty, `.` or
`..`.  Where it leads depends on the disk, since every name but the last has to lead into a
directory.  An empty name and `.` stay where they are, but only in a directory.

## Main definitions

* `Disk.locate` finds the location to which a route leads.
* `Disk.ensureRoute` makes a route lead to a directory, creating what is missing on the way.
* `Disk.reach` is where a location leads, if it can be reached in the way it is written.
-/

namespace Checkpointing

/-- The names of a path as they are written. -/
abbrev Route := List String

namespace Route

/-- The most bytes that a name may have. -/
def maxName : Nat := 255

/-- The most bytes that a whole path may have. -/
def maxText : Nat := 4095

/-- The most bytes of a path that stays within the bounds, whatever of this library's names are
added to it: two of them, such as `savepoint-7` and `task-1-0-0.bin`, have less than a hundred. -/
def safeText : Nat := 3995

/-- The route that a text writes. -/
def ofText (text : String) : Route := text.splitOn "/"

/-- Where a text starts: at the root or in the working directory. -/
def startOf (text : String) : Path := if text.startsWith "/" then ["/"] else []

/-- Whether a name stays where it is. -/
def stays (name : String) : Bool := name == "" || name == "."

/-- The route without the slashes at its end. -/
def trim (r : Route) : Route := (r.reverse.dropWhile fun name => name == "").reverse

/-- The shorter routes to the directories on the way, the longest first. -/
def ancestors (r : Route) : List Route :=
  let names := r.filter fun name => !stays name
  (((List.range names.length).drop 1).map names.take).reverse

end Route

namespace Disk

open Route

/-! ### Finding -/

/-- Follows one name from where a route has led so far. -/
def follow (d : Disk) (here : Path) (name : String) : Except DiskError Path :=
  match d.node? here with
  | none => .error .notFound
  | some (.file _) => .error .notDirectory
  | some .directory =>
    if stays name then .ok here
    else if name = ".." then .ok here.parent
    else if name.utf8ByteSize > maxName then .error .nameTooLong
    else if d.isThere (here ++ [name]) then .ok (here ++ [name])
    else .error .notFound

/-- Follows a route. -/
def followAll (d : Disk) (here : Path) : Route → Except DiskError Path
  | [] => .ok here
  | name :: rest =>
    match d.follow here name with
    | .error e => .error e
    | .ok here => d.followAll here rest

/-- The directories that a route enters and leaves again. -/
def detours (d : Disk) (here : Path) : Route → List Path
  | [] => []
  | name :: rest =>
    match d.follow here name with
    | .error _ => []
    | .ok next =>
      (if name = ".." ∧ !here.isAbove then [here] else []) ++ d.detours next rest

/-- The location to which a written path leads. -/
def locate (d : Disk) (text : String) : Except DiskError Location :=
  if text.utf8ByteSize > maxText then .error .nameTooLong
  else
    let detours := d.detours (startOf text) (ofText text)
    (d.followAll (startOf text) (ofText text)).map fun path => {
      shown := text
      path := path
      detours := if detours = [] ∧ text.utf8ByteSize ≤ safeText then none else some detours }

/-! ### Creating -/

/-- Creates the directory to which a route leads.  A route that ends with `.` or `..` leads to a
directory that is there already. -/
def makeDirectory (d : Disk) (start : Path) (r : Route) : Except DiskError Disk :=
  match (trim r).getLast? with
  | none => .error .taken
  | some name =>
    match d.followAll start (trim r).dropLast with
    | .error e => .error e
    | .ok here =>
      match d.follow here name with
      | .ok _ => .error .taken
      | .error .notFound => .ok (d.put (here ++ [name]) .directory)
      | .error e => .error e

/-- Makes sure that a route leads to a directory; only its last name may be missing. -/
def ensureDirectory (d : Disk) (start : Path) (r : Route) : Except DiskError Disk :=
  match d.makeDirectory start r with
  | .error .taken =>
    match d.followAll start r with
    | .ok path => if d.isDirectory path then .ok d else .error .taken
    | .error _ => .error .taken
  | made => made

/-- Makes sure that the first of several routes leads to a directory.  If a directory on the way is
missing, it is created first, to which the second route leads, and so on. -/
def ensureFirst (d : Disk) (start : Path) : List Route → Disk × Option DiskError
  | [] => (d, none)
  | r :: ancestors =>
    match d.ensureDirectory start r with
    | .ok d => (d, none)
    | .error .notFound =>
      match d.ensureFirst start ancestors with
      | (d, some e) => (d, some e)
      | (d, none) =>
        match d.ensureDirectory start r with
        | .ok d => (d, none)
        | .error e => (d, some e)
    | .error e => (d, some e)

/-- Makes sure that a written path leads to a directory.  Directories that were created before a
failure stay. -/
def ensureRoute (d : Disk) (text : String) : Disk × Option DiskError :=
  if text.utf8ByteSize > maxText then (d, some .nameTooLong)
  else d.ensureFirst (startOf text) (ofText text :: ancestors (ofText text))

/-! ### Using locations -/

/-- Why a directory cannot be entered. -/
def barrier? (d : Disk) (p : Path) : Option DiskError :=
  match d.node? p with
  | some .directory => none
  | some (.file _) => some .notDirectory
  | none => some (d.absence p)

/-- The path to which a location leads, which cannot be reached if its text is too long or a
directory of a detour is gone. -/
def reach (d : Disk) (l : Location) : Except DiskError Path :=
  match l.detours with
  | none => .ok l.path
  | some detours =>
    if l.shown.utf8ByteSize > maxText then .error .nameTooLong
    else
      match detours.findSome? d.barrier? with
      | none => .ok l.path
      | some e => .error e

/-- Whether there is a file or directory at a location. -/
def isThereAt (d : Disk) (l : Location) : Bool :=
  match d.reach l with
  | .ok p => d.isThere p
  | .error _ => false

/-- Makes a location a directory, creating all that is missing on the way to it. -/
def createDirectoriesAt (d : Disk) (l : Location) : Except DiskError Disk :=
  match l.detours with
  | none => d.createDirectories l.path
  | some detours =>
    if l.shown.utf8ByteSize > maxText then .error .nameTooLong
    else (detours.foldlM createDirectories d).bind fun d => d.createDirectories l.path

end Disk

end Checkpointing
