import JobControl.SystemError
import JobControl.Text.Utf8

/-!
# Files

A tree of directories and files, as seen from a working directory.

* `Files.lookup` : the entry at a path; `Files.descend` : follow names through directories;
* `Files.locate` : the directory and the name that a written path means;
* `Files.find` : the entry that a written path means;
* `Files.openAs` : open a file, which is created or emptied if asked for;
* `Files.save` : make a text the content of a file;
* `Files.regular` : the regular files of the working directory.
-/

set_option autoImplicit false

namespace JobControl

/-- The names on the way from the root. -/
abbrev Path := List String

inductive FileEntry where
  | directory
  | file (mode : Nat) (content : List UInt8)
  /-- Empty when read; forgets what is written to it. -/
  | null
  /-- Cannot take anything. -/
  | full
  /-- The terminal, of which there is none. -/
  | terminal
  /-- Another way to a stream that the process has open. -/
  | stream (number : Nat)
  /-- A program of the system. -/
  | program (name : String)
  deriving DecidableEq, Repr

structure Files where
  /-- What is found at a path; the root is always a directory. -/
  entries : List (Path × FileEntry) := []
  /-- Where relative paths start. -/
  working : Path := []
  deriving DecidableEq, Repr

inductive OpenFile where
  | file (path : Path)
  | directory (path : Path)
  | null
  | full
  | stream (number : Nat)
  deriving DecidableEq, Repr

/-- What a file is opened for. -/
structure Opening where
  /-- It will be written to. -/
  write : Bool := false
  /-- A missing file is created, with these permissions. -/
  create : Option Nat := none
  /-- A file that exists is emptied. -/
  truncate : Bool := false
  /-- The file must not exist. -/
  fresh : Bool := false
  deriving DecidableEq, Repr

namespace Files

/-- The longest name of a file, in bytes. -/
def maxName : Nat := 255

/-- The permissions of a file that the shell or a job creates: read and write for owner and
group, less what the usual mask takes away. -/
def newMode : Nat := 0o640

/-- Open a file for writing as the shell does: a missing file is created, a file that exists is
emptied. -/
def outlet : Opening := { write := true, create := some newMode, truncate := true }

def lookup (f : Files) (p : Path) : Option FileEntry :=
  if p.isEmpty then some .directory else f.entries.lookup p

def insert (f : Files) (p : Path) (e : FileEntry) : Files :=
  { f with entries := (p, e) :: f.entries.filter (·.1 != p) }

def names (f : Files) (dir : Path) : List String :=
  f.entries.filterMap fun (p, _) => if p ≠ [] ∧ p.dropLast = dir then p.getLast? else none

/-! ## Paths -/

/-- The path of a name in the directory `dir`. -/
def child (dir : Path) (name : String) : Except SystemError Path :=
  if name == "" || name == "." then .ok dir
  else if name == ".." then .ok dir.dropLast
  else if maxName < name.utf8ByteSize then .error .nameTooLong
  else .ok (dir ++ [name])

/-- Follow names, each of which must be a directory. -/
def descend (f : Files) (dir : Path) : List String → Except SystemError Path
  | [] => .ok dir
  | name :: rest =>
    match child dir name with
    | .error e => .error e
    | .ok next =>
      match f.lookup next with
      | some .directory => f.descend next rest
      | some _ => .error .notDirectory
      | none => .error .noEntry

/-- Where a written path leads. -/
structure Location where
  /-- The directory that the last name is looked up in. -/
  dir : Path
  /-- The last name; none if the path names the directory itself. -/
  name : Option String
  /-- The path ends in a slash, so it means a directory. -/
  slashed : Bool

/-- Where a path leads that is written with slashes; a relative one starts in `base`. It holds no
NUL and is not empty; all names but the last must be directories. -/
def locate (f : Files) (base : Path) (path : String) : Except SystemError Location :=
  if path.contains '\x00' then .error (.other "file name contained an unexpected NUL byte")
  else if path == "" then .error .noEntry
  else
    let names := (path.splitOn "/").reverse
    let slashed := names.head? == some ""
    let base := if path.startsWith "/" then [] else base
    match names.dropWhile (· == "") with
    | [] => .ok ⟨base, none, slashed⟩
    | last :: before =>
      match f.descend base before.reverse with
      | .error e => .error e
      | .ok dir =>
        if last == "." then .ok ⟨dir, none, slashed⟩
        else if last == ".." then .ok ⟨dir.dropLast, none, slashed⟩
        else .ok ⟨dir, some last, slashed⟩

/-- The entry that a path means, followed to its end. -/
def find (f : Files) (base : Path) (path : String) : Except SystemError (Path × FileEntry) :=
  match f.locate base path with
  | .error e => .error e
  | .ok ⟨dir, none, _⟩ => .ok (dir, .directory)
  | .ok ⟨dir, some name, slashed⟩ =>
    match child dir name with
    | .error e => .error e
    | .ok p =>
      match f.lookup p with
      | none => .error .noEntry
      | some .directory => .ok (p, .directory)
      | some entry => if slashed then .error .notDirectory else .ok (p, entry)

/-! ## Opening -/

def openEntry (f : Files) (how : Opening) (p : Path) :
    FileEntry → Except SystemError (OpenFile × Files)
  | .directory => if how.write then .error .isDirectory else .ok (.directory p, f)
  | .null => .ok (.null, f)
  | .full => .ok (.full, f)
  | .terminal => .error .noDevice
  | .stream n => .ok (.stream n, f)
  | .program _ => if how.write then .error .denied else .ok (.file p, f)
  | .file mode _ =>
    if how.fresh then .error .fileExists
    else if how.truncate then .ok (.file p, f.insert p (.file mode []))
    else .ok (.file p, f)

/-- The directories in which no file can be created. -/
def fixedDirectories : List Path :=
  [["proc"], ["proc", "self"], ["proc", "self", "fd"], ["dev", "fd"]]

/-- Open the file that a path means. A path that ends in a slash cannot name a file to create. -/
def openAs (f : Files) (base : Path) (how : Opening) (path : String) :
    Except SystemError (OpenFile × Files) :=
  match f.locate base path with
  | .error e => .error e
  | .ok ⟨dir, none, _⟩ => f.openEntry how dir .directory
  | .ok ⟨dir, some name, slashed⟩ =>
    if slashed ∧ how.create.isSome then .error .isDirectory
    else
      match child dir name with
      | .error e => .error e
      | .ok p =>
        match f.lookup p, how.create with
        | none, none => .error .noEntry
        | none, some mode =>
          if dir ∈ fixedDirectories then .error .noEntry
          else .ok (.file p, f.insert p (.file mode []))
        | some entry, _ =>
          if slashed ∧ entry ≠ .directory then .error .notDirectory else f.openEntry how p entry

/-! ## Contents -/

def content (f : Files) (p : Path) : List UInt8 :=
  match f.lookup p with
  | some (.file _ bytes) => bytes
  | _ => []

/-- Write bytes over the content of a file from an offset on. What lies between the end and the
offset becomes zero. -/
def writeAt (f : Files) (p : Path) (offset : Nat) (bytes : List UInt8) : Files :=
  match f.lookup p with
  | some (.file mode old) =>
    let before := old.take offset ++ List.replicate (offset - old.length) 0
    f.insert p (.file mode (before ++ bytes ++ old.drop (offset + bytes.length)))
  | _ => f

/-- Make `text` the content of a file. -/
def save (f : Files) (path text : String) : Except SystemError Files :=
  match f.openAs f.working outlet path with
  | .error e => .error e
  | .ok (.file p, f) => .ok (f.writeAt p 0 (Utf8.encode text))
  | .ok (.full, f) => if text == "" then .ok f else .error .noSpace
  | .ok (_, f) => .ok f

/-- The regular files of the working directory: name, mode and content. -/
def regular (f : Files) : List (String × Nat × List UInt8) :=
  f.entries.filterMap fun
    | (p, .file mode content) =>
      match p.reverse with
      | name :: rest => if rest.reverse = f.working then some (name, mode, content) else none
      | [] => none
    | _ => none

def modeText (mode : Nat) : String := String.ofList (Nat.toDigits 8 mode)

/-! ## A file system to start from -/

def programs : List String := ["echo", "cat", "true", "false", "sleep", "sh"]

def systemDirectories : List Path :=
  [["bin"], ["boot"], ["dev"], ["dev", "fd"], ["dev", "shm"], ["etc"], ["home"],
   ["lib"], ["lib64"], ["media"], ["mnt"], ["opt"], ["proc"], ["proc", "self"],
   ["proc", "self", "fd"], ["root"], ["run"], ["sbin"], ["srv"], ["sys"], ["tmp"], ["tmp", "work"],
   ["usr"], ["usr", "bin"], ["usr", "lib"], ["usr", "local"], ["usr", "local", "bin"],
   ["usr", "local", "sbin"], ["usr", "sbin"], ["usr", "share"], ["var"], ["var", "log"],
   ["var", "tmp"]]

/-- The devices of the system. One that would never come to an end when it is read is empty. -/
def devices : List (String × FileEntry) :=
  [("null", .null), ("zero", .null), ("random", .null), ("urandom", .null), ("full", .full),
   ("tty", .terminal)]

/-- The names of the streams of a process. -/
def streamNames : List (Path × Nat) :=
  [(["dev", "stdin"], 0), (["dev", "stdout"], 1), (["dev", "stderr"], 2)] ++
    (List.range 10).flatMap fun n =>
      [(["dev", "fd", toString n], n), (["proc", "self", "fd", toString n], n)]

/-- The system's files, seen from an empty working directory. -/
def system : Files where
  entries :=
    systemDirectories.map (·, .directory) ++
      devices.map (fun (name, e) => (["dev", name], e)) ++
      streamNames.map (fun (p, n) => (p, .stream n)) ++
      programs.map (fun name => (["bin", name], .program name)) ++
      programs.map (fun name => (["usr", "bin", name], .program name))
  working := ["tmp", "work"]

/-- The permissions of files that are there from the start. -/
def givenMode : Nat := 0o600

/-- A path of the working directory, by its written form. -/
def relative (f : Files) (path : String) : Path :=
  f.working ++ (path.splitOn "/").filter (fun name => name != "" && name != ".")

/-- Make a directory and those on the way to it. -/
def makeDirectory (f : Files) (p : Path) : Files :=
  (List.range p.length).foldl (fun f n =>
    let dir := p.take (n + 1)
    if (f.lookup dir).isSome then f else f.insert dir .directory) f

/-- The system with directories and files in the working directory. -/
def withWork (dirs : List String) (files : List (String × String)) : Files :=
  let f := dirs.foldl (fun f dir => f.makeDirectory (f.relative dir)) system
  files.foldl (fun f (name, text) =>
    f.insert (f.relative name) (.file givenMode (Utf8.encode text))) f

end Files
end JobControl
