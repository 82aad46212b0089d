import ChangeTracking.Text.Chars

/-!
# File trees

What reading a path gives.  A path is followed name by name, as POSIX lays down, so a
name that is looked up in a file is a failure, and a name that a directory lacks means
that there is no such file.
-/

namespace ChangeTracking

/-- What reading a path gives. -/
inductive Reading
  | missing
  | failed (reason : String)
  | content (bytes : List UInt8)
  deriving DecidableEq, Repr

/-- A file, or a directory with its entries. -/
inductive FileTree
  | file (content : List UInt8)
  | directory (entries : List (String × FileTree))

namespace FileTree

/-- The longest name of an entry in bytes. -/
def maxNameBytes : Nat := 255

/-- The longest path in bytes. -/
def maxPathBytes : Nat := 4095

/-- Follow names from a node; `above` holds the directories that lead to it, innermost
first. -/
def follow (above : List FileTree) (here : FileTree) : List String → Reading
  | [] =>
      match here with
      | file content => .content content
      | directory _ => .failed "is a directory"
  | name :: names =>
      match here with
      | file _ => .failed "not a directory"
      | directory entries =>
          if name = "" ∨ name = "." then follow above here names
          else if name = ".." then
            match above with
            | [] => follow [] here names
            | parent :: above => follow above parent names
          else if name.utf8ByteSize > maxNameBytes then .failed "name too long"
          else
            match entries.lookup name with
            | none => .missing
            | some node => follow (here :: above) node names

/-- Read a path of the tree; a path that does not begin at the root begins in an empty
directory just below it. -/
def read (root : FileTree) (path : String) : Reading :=
  if path.contains '\x00' then .failed "null character in path"
  else if path.utf8ByteSize > maxPathBytes then .failed "path too long"
  else
    match Text.segments '/' path with
    | [""] => .missing
    | "" :: names => follow [] root names
    | names => follow [root] (directory []) names

def directories (names : List String) : List (String × FileTree) :=
  names.map fun name => (name, directory [])

/-- The null device, which reads as empty. -/
def nullDevice : FileTree := file []

/-- The directories that the Filesystem Hierarchy Standard asks for, and the null
device: a system on which nothing has been stored. -/
def standard : FileTree :=
  directory ([
      ("dev", directory (("null", nullDevice) :: directories ["pts", "shm"])),
      ("etc", directory (directories ["opt"])),
      ("usr", directory (
        ("local", directory (directories
          ["bin", "etc", "games", "include", "lib", "man", "sbin", "share", "src"]))
          :: directories ["bin", "include", "lib", "sbin", "share", "src"])),
      ("var", directory (directories
        ["cache", "lib", "local", "lock", "log", "mail", "opt", "run", "spool", "tmp"]))]
    ++ directories ["bin", "boot", "home", "lib", "media", "mnt", "opt", "proc", "root", "run",
        "sbin", "srv", "sys", "tmp"])

end FileTree

end ChangeTracking
