import PatchLint.Files.Path
import PatchLint.Text.Newline
import PatchLint.Text.Quoted
import PatchLint.Text.Utf8

/-!
# File trees

The files a command works on, as one value: directories with their entries and files with their
bytes. There are no links, so a path can be resolved by its components alone; still, every component
but the last has to be a directory for the path to denote something. What may not be read is locked, be
it a file or a directory; nothing can be told of what a locked directory holds. A name is limited in its
length, and so is a whole path where the system is asked what it denotes; the other functions are for paths that
are short enough.
-/

namespace PatchLint

/-- A file or a directory. -/
inductive FileTree where
  | file (bytes : List UInt8)
  | directory (entries : List (String × FileTree))
  /-- A file or a directory that may not be read. -/
  | locked (isDirectory : Bool)
  deriving Repr

/-- Why a path cannot be read. -/
inductive ReadFault where
  | notFound
  | notADirectory
  | isADirectory
  | denied
  | nameTooLong
  deriving DecidableEq, Repr

/-- The wording of a failure to read a path. -/
def ReadFault.message (f : ReadFault) (path : String) : String :=
  let reason := match f with
    | .notFound => "[Errno 2] No such file or directory"
    | .notADirectory => "[Errno 20] Not a directory"
    | .isADirectory => "[Errno 21] Is a directory"
    | .denied => "[Errno 13] Permission denied"
    | .nameTooLong => "[Errno 36] File name too long"
  reason ++ ": " ++ String.ofList (Text.quoted path.toList)

/-- Whether a failure says that there is nothing at a path, so that a question for a file can be answered. -/
def ReadFault.isAbsence : ReadFault → Bool
  | .notFound | .notADirectory => true
  | .isADirectory | .denied | .nameTooLong => false

namespace FileTree

/-- An empty directory. -/
def empty : FileTree := .directory []

/-- The entry of a name in a list of entries. -/
def entryOf? (name : String) : List (String × FileTree) → Option FileTree
  | [] => none
  | (n, t) :: rest => if n = name then some t else entryOf? name rest

/-- The entry of a directory. -/
def child? (t : FileTree) (name : String) : Option FileTree :=
  match t with
  | .file _ | .locked _ => none
  | .directory entries => entryOf? name entries

/-- What lies below a directory under these names. -/
def find? (t : FileTree) : List String → Option FileTree
  | [] => some t
  | name :: rest => (t.child? name).bind (·.find? rest)

/-- Whether this is a directory. -/
def isDirectory : FileTree → Bool
  | .directory _ => true
  | .file _ => false
  | .locked isDirectory => isDirectory

/-! ## Paths -/

/-- How many bytes a name may have. -/
def nameLimit : Nat := 255

/-- How many bytes a whole path may have. -/
def pathLimit : Nat := 4095

/-- How many bytes the absolute path with these names has: a slash stands in front of each of them. -/
def byteCount (names : List String) : Nat := names.foldr (fun name count => name.utf8ByteSize + 1 + count) 0

/-- What is said of a place in a directory at which there is nothing. -/
def missing (place : List String) : ReadFault :=
  if nameLimit < (place.getLast?.getD "").utf8ByteSize then .nameTooLong else .notFound

/-- Follows components from a place given by resolved ones. A step is possible only from a directory;
a double dot goes up. -/
def follow (root : FileTree) (place : List String) : List String → Except ReadFault FileTree
  | [] => match root.find? place with
    | some t => .ok t
    | none => .error (missing place)
  | p :: rest =>
    match root.find? place with
    | none => .error (missing place)
    | some (.file _) | some (.locked false) => .error .notADirectory
    | some (.locked true) => .error .denied
    | some (.directory _) =>
      if p = ".." then follow root place.dropLast rest
      else if p = "." then follow root place rest
      else follow root (place ++ [p]) rest

/-- What an absolute path denotes. -/
def lookup (root : FileTree) (p : Path) : Except ReadFault FileTree := follow root [] p.parts

/-- Whether an absolute path denotes a file. -/
def isFile (root : FileTree) (p : Path) : Bool :=
  match root.lookup p with
  | .ok t => !t.isDirectory
  | .error _ => false

/-- Whether an absolute path denotes a directory. -/
def isDir (root : FileTree) (p : Path) : Bool :=
  match root.lookup p with
  | .ok t => t.isDirectory
  | .error _ => false

/-- The answer of the system to the question whether an absolute path denotes a file. -/
def askFile (root : FileTree) (p : Path) : Except ReadFault Bool :=
  if pathLimit < byteCount p.parts then .error .nameTooLong
  else match root.lookup p with
  | .ok t => .ok !t.isDirectory
  | .error fault => if fault.isAbsence then .ok false else .error fault

/-- The bytes of the file that an absolute path denotes. -/
def readBytes (root : FileTree) (p : Path) : Except ReadFault (List UInt8) :=
  match root.lookup p with
  | .ok (.file bytes) => .ok bytes
  | .ok (.directory _) => .error .isADirectory
  | .ok (.locked _) => .error .denied
  | .error e => .error e

/-- Why a file has no text. -/
inductive TextFault where
  | unreadable (fault : ReadFault)
  | undecodable (error : Utf8.DecodeError)
  deriving DecidableEq, Repr

/-- The text of a file, with every line end turned into a newline. -/
def readText (root : FileTree) (p : Path) : Except TextFault Text :=
  match root.readBytes p with
  | .error e => .error (.unreadable e)
  | .ok bytes =>
    match Utf8.decode bytes with
    | .error e => .error (.undecodable e)
    | .ok t => .ok (Text.normalize t)

/-- What a path text denotes as it is written: a slash or a dot at its end asks for a directory, and
the empty text denotes nothing. -/
def lookupText (root : FileTree) (cwd : Path) (s : String) : Except ReadFault FileTree :=
  if s.isEmpty then .error .notFound
  else if pathLimit < s.utf8ByteSize then .error .nameTooLong
  else
    let steps := (Text.pieces '/' s.toList).map fun p => if p.isEmpty then "." else String.ofList p
    if s.toList.head? = some '/' then follow root [] steps
    else follow root (Path.resolveParts cwd.parts) steps

/-! ## Changing -/

/-- Puts an entry into a list of entries, at its old place or at the end. -/
def putEntry (name : String) (t : FileTree) : List (String × FileTree) → List (String × FileTree)
  | [] => [(name, t)]
  | (n, old) :: rest => if n = name then (n, t) :: rest else (n, old) :: putEntry name t rest

/-- Puts a file or a directory under these names; directories on the way are made. -/
def put (t new : FileTree) : List String → FileTree
  | [] => new
  | name :: rest =>
    match t with
    | .file bytes => .file bytes
    | .locked isDirectory => .locked isDirectory
    | .directory entries =>
      .directory (putEntry name (put ((entryOf? name entries).getD .empty) new rest) entries)

/-- Writes the bytes of a file. -/
def write (root : FileTree) (p : Path) (bytes : List UInt8) : FileTree :=
  root.put (.file bytes) p.parts

/-! ## Listing -/

mutual

/-- What is at a place and below it, with the paths; what lies in a directory follows the directory. -/
def walk (place : Path) : FileTree → List (Path × FileTree)
  | .file bytes => [(place, .file bytes)]
  | .locked isDirectory => [(place, .locked isDirectory)]
  | .directory entries => (place, .directory entries) :: walkEntries place entries

/-- What some entries of a place hold. -/
def walkEntries (place : Path) : List (String × FileTree) → List (Path × FileTree)
  | [] => []
  | (name, t) :: rest => walk (place.child name) t ++ walkEntries place rest

end

/-- The bytes of a file that may be read. -/
def bytes? : FileTree → Option (List UInt8)
  | .file bytes => some bytes
  | .directory _ | .locked _ => none

/-- All files at a place and below it that may be read, with their paths. -/
def files (t : FileTree) (place : Path) : List (Path × List UInt8) :=
  (t.walk place).filterMap fun (p, found) => found.bytes?.map (p, ·)

end FileTree

end PatchLint
