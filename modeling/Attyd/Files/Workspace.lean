import Attyd.Files.TextRange

/-!
# The files of a workspace

The agent reads and writes text files, and starts terminals in directories, below the permitted
roots. A path is first taken without its dot segments, then resolved, and both have to lie below
a root. A file that is not there yet is created in its resolved directory.

## Implementation notes

Calls of the operating system may fail for reasons of its own, which a fault for each call stands
for. A disk is the tree and the locations that were opened or created in it, in order. The text of
a read is read from the file at once, and a cut of it into buffers is passed to a ranged read.
-/

namespace Attyd.Files

/-- Why calls of the operating system fail on a path, where they do not fail by themselves; a
write that fails has written so many bytes. -/
structure Faults where
  canonicalize : Location → Option IoError
  metadata : Location → Option IoError
  openFile : Location → Option IoError
  readAll : Location → Option IoError
  writeAll : Location → Option (IoError × ℕ)
  flush : Location → Option IoError

/-- The files and what was opened of them. -/
structure Disk where
  tree : FileTree
  opened : List Location

/-- The errors that a write meets behind the opening of its file, at its content. -/
def FsError.atContent : FsError → Bool
  | .write _ _ stage _ => stage = "write content" || stage = "flush content"
  | _ => false

section Calls

variable (faults : Faults) (disk : Disk)

def canonicalize (path : Location) : Except IoError Location :=
  match faults.canonicalize path with
  | some error => .error error
  | none => disk.tree.resolve path

/-- What is at a path. -/
def metadata (path : Location) : Except IoError Node :=
  match faults.metadata path with
  | some error => .error error
  | none =>
      match disk.tree.resolve path with
      | .error error => .error error
      | .ok location => (disk.tree.node location).elim (.error .notFound) .ok

/-- Open the file at a path to read it. -/
def openToRead (path : Location) : Except IoError (Location × Disk) :=
  match faults.openFile path with
  | some error => .error error
  | none =>
      match disk.tree.resolve path with
      | .error error => .error error
      | .ok location => .ok (location, { disk with opened := disk.opened ++ [location] })

/-- The bytes of an open file. -/
def readAll (location : Location) : Except IoError (List UInt8) :=
  match faults.readAll location with
  | some error => .error error
  | none =>
      match disk.tree.node location with
      | some (.file content) => .ok content
      | _ => .error .isADirectory

/-- Write a file that is opened by it, at its location. -/
def Disk.openAt (location : Location) : Location × Disk :=
  (location, ⟨disk.tree.writeFile location [], disk.opened ++ [location]⟩)

/-- Open a file to write it: one that is there loses its content, and a new one is created only
where nothing is, a link included. -/
def openToWrite (path : Location) (createNew : Bool) : Except IoError (Location × Disk) :=
  match faults.openFile path with
  | some error => .error error
  | none =>
      if createNew then
        match disk.tree.resolve path.dropLast, path.getLast? with
        | .error error, _ => .error error
        | .ok _, none => .error .alreadyExists
        | .ok directory, some name =>
            match disk.tree.node directory, disk.tree.node (directory ++ [name]) with
            | some .directory, none => .ok (disk.openAt (directory ++ [name]))
            | some .directory, some _ => .error .alreadyExists
            | _, _ => .error .notADirectory
      else
        match disk.tree.resolve path with
        | .error error => .error error
        | .ok location =>
            match disk.tree.node location with
            | some (.file _) => .ok (disk.openAt location)
            | _ => .error .isADirectory

/-- Write to an open file. -/
def writeAll (location : Location) (content : List UInt8) : Except IoError Unit × Disk :=
  match faults.writeAll location with
  | some (error, count) =>
      (.error error, { disk with tree := disk.tree.writeFile location (content.take count) })
  | none => (.ok (), { disk with tree := disk.tree.writeFile location content })

end Calls

section Paths

/-- A path without its dot segments. -/
def normalize (path : String) : Location :=
  (components path.toList).foldl
    (fun result component =>
      match component with
      | .parentDir => result.dropLast
      | .normal name => result ++ [name])
    []

def isAbsolute (path : String) : Bool := path.toList.head? = some '/'

def display (path : Location) : String := "/" ++ "/".intercalate (path.map String.ofList)

def lexicalAbsolute (path : String) : Except FsError Location :=
  if isAbsolute path then .ok (normalize path)
  else .error (.invalidParams "workspace roots must be absolute")

end Paths

structure WorkspaceRoot where
  lexical : Location
  canonical : Location

structure WorkspaceFileSystem where
  roots : List WorkspaceRoot
  nonempty : roots ≠ []
  additionalRoots : List String
  readOnly : Bool

namespace WorkspaceFileSystem

/-- The root at a path: it has to be there. -/
def openRoot (faults : Faults) (disk : Disk) (candidate : String) :
    Except FsError WorkspaceRoot := do
  let lexical ← lexicalAbsolute candidate
  match canonicalize faults disk lexical with
  | .ok canonical => .ok ⟨lexical, canonical⟩
  | .error _ =>
      .error (.invalidParams ("workspace root cannot be resolved (" ++ display lexical ++ ")"))

/-- Roots that resolve alike are taken once. -/
def addRoots (faults : Faults) (disk : Disk) (roots : List WorkspaceRoot) :
    List String → Except FsError (List WorkspaceRoot)
  | [] => .ok roots
  | candidate :: candidates => do
      let root ← openRoot faults disk candidate
      addRoots faults disk
        (if roots.any (·.canonical = root.canonical) then roots else roots ++ [root]) candidates

/-- No root is lost when others are added. -/
theorem addRoots_ne_nil {faults : Faults} {disk : Disk} {roots added : List WorkspaceRoot}
    {candidates : List String} (hroots : roots ≠ [])
    (h : addRoots faults disk roots candidates = .ok added) : added ≠ [] := by
  induction candidates generalizing roots with
  | nil => exact Except.ok.inj h ▸ hroots
  | cons candidate candidates ih =>
      rw [addRoots] at h
      cases hroot : openRoot faults disk candidate with
      | error error => simp [hroot, bind, Except.bind] at h
      | ok root =>
          simp only [hroot, bind, Except.bind] at h
          refine ih ?_ h
          split
          · exact hroots
          · simp

def new (faults : Faults) (disk : Disk) (root : String) (readOnly : Bool)
    (additionalRoots : List String) : Except FsError WorkspaceFileSystem :=
  match openRoot faults disk root with
  | .error error => .error error
  | .ok primary =>
      match h : addRoots faults disk [primary] additionalRoots with
      | .error error => .error error
      | .ok roots => .ok ⟨roots, addRoots_ne_nil (List.cons_ne_nil _ _) h, additionalRoots, readOnly⟩

variable (self : WorkspaceFileSystem)

def checkedLexicalPath (path : String) : Except FsError Location :=
  if path.isEmpty || path.toList.contains '\x00' || !isAbsolute path then
    .error (.invalidParams
      "ACP filesystem path must be absolute, non-empty, and contain no NUL bytes")
  else
    let lexical := normalize path
    if self.roots.any fun root => root.lexical <+: lexical || root.canonical <+: lexical then
      .ok lexical
    else
      .error (.invalidParams ("path is outside the workspace boundary: " ++ display lexical))

def assertCanonicalWithin (path : Location) : Except FsError Unit :=
  if self.roots.any fun root => root.canonical <+: path then .ok ()
  else .error (.invalidParams ("path is outside the workspace boundary: " ++ display path))

variable (faults : Faults) (disk : Disk)

def checkedExistingPath (path : String) : Except FsError Location := do
  let lexical ← self.checkedLexicalPath path
  let canonical ← (canonicalize faults disk lexical).mapError .io
  self.assertCanonicalWithin canonical
  return canonical

section Read

structure ReadTextFileRequest where
  path : String
  line : Option ℕ
  limit : Option ℕ

/-- How a reader fills its buffer when a number of bytes is left. -/
abbrev Buffering := {buffered : ℕ → ℕ // ∀ left, 0 < left → 0 < buffered left}

/-- The text of an open file, all of it or the lines that are asked for. -/
def readText (buffering : Buffering) (request : ReadTextFileRequest) (bytes : List UInt8) :
    Except FsError String :=
  if request.line.isSome || request.limit.isSome then
    readTextRange ⟨bytes, buffering.1, buffering.2⟩ (request.line.getD 1) request.limit
  else
    match fromUtf8 bytes with
    | some text => .ok text
    | none => .error (.invalidRequest "ACP file is not valid UTF-8 text")

/-- Open the file of a request, which has to be a regular one. -/
def openRequested (request : ReadTextFileRequest) : Except FsError (Location × Disk) := do
  let path ← self.checkedExistingPath faults disk request.path
  match ← (metadata faults disk path).mapError .io with
  | .file _ => (openToRead faults disk path).mapError .io
  | _ => .error (.invalidParams "ACP file read target must be a regular file")

def readValidated (buffering : Buffering) (request : ReadTextFileRequest) :
    Except FsError String × Disk :=
  match self.openRequested faults disk request with
  | .error error => (.error error, disk)
  | .ok (location, disk) =>
      match readAll faults disk location with
      | .error error => (.error (.io error), disk)
      | .ok bytes => (readText buffering request bytes, disk)

def readCancellable (buffering : Buffering) (cancelled : Bool) (request : ReadTextFileRequest) :
    Except FsError String × Disk :=
  if request.line = some 0 then
    (.error (.invalidParams "ACP file read line must be 1-based"), disk)
  else if cancelled then (.error .requestCancelled, disk)
  else self.readValidated faults disk buffering request

end Read

section Write

structure WriteTextFileRequest where
  path : String
  content : String

def ensureNotCancelled (cancelled : Bool) : Except FsError Unit :=
  if cancelled then .error .requestCancelled else .ok ()

/-- Where a file is written, and whether it is created there. -/
def writeTarget (path : String) : Except FsError (Location × Bool) := do
  let lexical ← self.checkedLexicalPath path
  match canonicalize faults disk lexical with
  | .ok existing => do
      self.assertCanonicalWithin existing
      return (existing, false)
  | .error .notFound =>
      match lexical.getLast? with
      | none => .error (.invalidParams "ACP file write target has no parent")
      | some name => do
          let canonicalParent ← (canonicalize faults disk lexical.dropLast).mapError fun error =>
            .write error path "resolve parent directory" false
          self.assertCanonicalWithin canonicalParent
          return (canonicalParent ++ [name], true)
  | .error error => .error (.write error path "resolve target" false)

/-- All that is done before the content is written; the write may be cancelled up to here. -/
def openTarget (cancelled : Bool × Bool) (path : String) : Except FsError (Location × Disk) :=
  if self.readOnly then .error (.invalidRequest "attyd is running in read-only mode")
  else do
    ensureNotCancelled cancelled.1
    let (target, createNew) ← self.writeTarget faults disk path
    ensureNotCancelled cancelled.2
    (openToWrite faults disk target createNew).mapError fun error =>
      .write error path (if createNew then "create new file" else "open or truncate file")
        (!createNew)

def writeCancellable (cancelled : Bool × Bool) (request : WriteTextFileRequest) :
    Except FsError Unit × Disk :=
  match self.openTarget faults disk cancelled request.path with
  | .error error => (.error error, disk)
  | .ok (location, disk) =>
      match writeAll faults disk location request.content.toByteArray.data.toList with
      | (.error error, disk) => (.error (.write error request.path "write content" true), disk)
      | (.ok (), disk) =>
          match faults.flush location with
          | some error => (.error (.write error request.path "flush content" true), disk)
          | none => (.ok (), disk)

end Write

/-- The directory a terminal is started in. -/
def checkedDirectory (path : Option String) : Except FsError Location := do
  let lexical ← path.elim (.ok (self.roots.head self.nonempty).lexical) self.checkedLexicalPath
  let canonical ← (canonicalize faults disk lexical).mapError .io
  self.assertCanonicalWithin canonical
  match ← (metadata faults disk canonical).mapError .io with
  | .directory => return canonical
  | _ => .error (.invalidParams "terminal cwd must be a directory")

end WorkspaceFileSystem

end Attyd.Files
