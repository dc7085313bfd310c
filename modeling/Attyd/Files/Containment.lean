import Attyd.Files.Workspace
import Attyd.Library.Machine

/-!
# Requests stay below the roots

What a request opens, creates or uses is where its path leads, and that is below a root. A
request that is refused leaves the disk as it was; a write fails later only at its content.

## Implementation notes

A location is below a root if the names of the root's resolved path start it and it is direct:
nothing on the way to it is a link, so it is where it says.
-/

namespace Attyd.Files

namespace WorkspaceFileSystem

variable {files : WorkspaceFileSystem} {faults : Faults} {disk : Disk}

/-- A location below a root. -/
def Within (files : WorkspaceFileSystem) (location : Location) : Prop :=
  ∃ root ∈ files.roots, root.canonical <+: location

/-- Something that is below a root, with no link on the way to it. -/
def Inside (files : WorkspaceFileSystem) (tree : FileTree) (location : Location) : Prop :=
  files.Within location ∧ tree.Direct location

/-- One location below a root is opened or created, and nothing else changes. -/
structure Opens (files : WorkspaceFileSystem) (before after : Disk) (location : Location) :
    Prop where
  inside : files.Inside after.tree location
  opened : after.opened = before.opened ++ [location]
  others : ∀ other ≠ location, after.tree.node other = before.tree.node other

theorem Within.append {location : Location} (h : files.Within location) (names : Location) :
    files.Within (location ++ names) := by
  obtain ⟨root, hroot, hprefix⟩ := h
  exact ⟨root, hroot, hprefix.trans (List.prefix_append location names)⟩

theorem within_of_assert {location : Location}
    (h : files.assertCanonicalWithin location = .ok ()) : files.Within location := by
  rw [assertCanonicalWithin] at h
  split at h
  · rename_i hany
    obtain ⟨root, hroot, hprefix⟩ := List.any_eq_true.1 hany
    exact ⟨root, hroot, of_decide_eq_true hprefix⟩
  · simp at h

end WorkspaceFileSystem

section Calls

variable {faults : Faults} {disk : Disk} {path location : Location}

theorem mapError_eq_ok {ε ε' α : Type} {f : ε → ε'} {x : Except ε α} {a : α} :
    x.mapError f = .ok a ↔ x = .ok a := by
  cases x <;> simp [Except.mapError]

/-- A path is canonical where it leads: no link is on the way. -/
theorem canonicalize_direct (h : canonicalize faults disk path = .ok location) :
    disk.tree.Direct location := by
  rw [canonicalize] at h
  split at h
  · simp at h
  · exact FileTree.direct_resolve h

/-- What is at a direct location is found there. -/
theorem metadata_direct {node : Node} (hpath : disk.tree.Direct path)
    (h : metadata faults disk path = .ok node) : disk.tree.node path = some node := by
  rw [metadata] at h
  split at h
  · simp at h
  · rw [FileTree.resolve_direct hpath] at h
    cases hnode : disk.tree.node path with
    | none => simp [hnode] at h
    | some found => simpa [hnode] using h

/-- A direct location is opened where it is. -/
theorem openToRead_direct {after : Disk} (hpath : disk.tree.Direct path)
    (h : openToRead faults disk path = .ok (location, after)) :
    location = path ∧ after = { disk with opened := disk.opened ++ [path] } := by
  rw [openToRead] at h
  split at h
  · simp at h
  · rw [FileTree.resolve_direct hpath] at h
    obtain ⟨rfl, rfl⟩ := Prod.mk.inj (Except.ok.inj h)
    exact ⟨rfl, rfl⟩

/-- A file at a direct location is opened there to be written. -/
theorem openToWrite_direct {after : Disk} (hpath : disk.tree.Direct path)
    (h : openToWrite faults disk path false = .ok (location, after)) :
    location = path ∧ after = (disk.openAt path).2 ∧
      ∃ content, disk.tree.node path = some (.file content) := by
  rw [openToWrite] at h
  split at h
  · simp at h
  · rw [if_neg (by simp), FileTree.resolve_direct hpath] at h
    dsimp only at h
    split at h
    · rename_i content hnode
      obtain ⟨rfl, rfl⟩ := Prod.mk.inj (Except.ok.inj h)
      exact ⟨rfl, rfl, content, hnode⟩
    · simp at h

/-- A file is created in its resolved directory, under a name that nothing has. -/
theorem openToWrite_new {name : Name} {after : Disk} (hpath : disk.tree.Direct path)
    (h : openToWrite faults disk (path ++ [name]) true = .ok (location, after)) :
    location = path ++ [name] ∧ after = (disk.openAt (path ++ [name])).2 ∧
      disk.tree.node path = some .directory ∧ disk.tree.node (path ++ [name]) = none := by
  rw [openToWrite] at h
  split at h
  · simp at h
  · rw [if_pos rfl, List.dropLast_concat, FileTree.resolve_direct hpath,
      List.getLast?_concat] at h
    dsimp only at h
    split at h
    · rename_i hdirectory hnone
      obtain ⟨rfl, rfl⟩ := Prod.mk.inj (Except.ok.inj h)
      exact ⟨rfl, rfl, hdirectory, hnone⟩
    · simp at h
    · simp at h

end Calls

namespace WorkspaceFileSystem

variable {files : WorkspaceFileSystem} {faults : Faults} {disk after : Disk}
  {location target : Location}

section Reads

theorem checkedExistingPath_inside {path : String}
    (h : files.checkedExistingPath faults disk path = .ok location) :
    files.Inside disk.tree location := by
  rw [checkedExistingPath] at h
  obtain ⟨lexical, -, h⟩ := bind_eq_ok.1 h
  obtain ⟨canonical, hcanonical, h⟩ := bind_eq_ok.1 h
  obtain ⟨⟨⟩, hwithin, h⟩ := bind_eq_ok.1 h
  obtain rfl := Except.ok.inj h
  exact ⟨within_of_assert hwithin, canonicalize_direct (mapError_eq_ok.1 hcanonical)⟩

/-- The file of a request is opened below a root. -/
theorem openRequested_opens {request : ReadTextFileRequest}
    (h : files.openRequested faults disk request = .ok (location, after)) :
    files.Opens disk after location ∧ after.tree = disk.tree := by
  rw [openRequested] at h
  obtain ⟨path, hpath, h⟩ := bind_eq_ok.1 h
  obtain ⟨node, -, h⟩ := bind_eq_ok.1 h
  have hinside := checkedExistingPath_inside hpath
  cases node with
  | file content =>
      obtain ⟨rfl, rfl⟩ := openToRead_direct hinside.2 (mapError_eq_ok.1 h)
      exact ⟨⟨hinside, rfl, fun _ _ => rfl⟩, rfl⟩
  | directory => simp at h
  | link target => simp at h

/-- A read is refused, or opens the file of its request and leaves the files as they are. -/
theorem readCancellable_cases (files : WorkspaceFileSystem) (faults : Faults) (disk : Disk)
    (buffering : Buffering) (cancelled : Bool)
    (request : ReadTextFileRequest) :
    (∃ error, files.readCancellable faults disk buffering cancelled request = (.error error, disk)) ∨
      ∃ location after result,
        files.readCancellable faults disk buffering cancelled request = (result, after) ∧
          files.Opens disk after location ∧ after.tree = disk.tree := by
  rw [readCancellable]
  split
  · exact .inl ⟨_, rfl⟩
  · split
    · exact .inl ⟨_, rfl⟩
    · rw [readValidated]
      cases hopen : files.openRequested faults disk request with
      | error error => exact .inl ⟨error, rfl⟩
      | ok opened =>
          obtain ⟨location, after⟩ := opened
          have hopens := openRequested_opens hopen
          right
          refine ⟨location, after, ?_⟩
          dsimp only
          cases readAll faults after location with
          | error error => exact ⟨_, rfl, hopens⟩
          | ok bytes => exact ⟨_, rfl, hopens⟩

end Reads

section Writes

/-- The target of a write is a file below a root, or a name in a directory below a root. -/
theorem writeTarget_cases {path : String} {createNew : Bool}
    (h : files.writeTarget faults disk path = .ok (target, createNew)) :
    (createNew = false ∧ files.Inside disk.tree target) ∨
      (createNew = true ∧ ∃ directory name, target = directory ++ [name] ∧
        files.Inside disk.tree directory) := by
  rw [writeTarget] at h
  obtain ⟨lexical, -, h⟩ := bind_eq_ok.1 h
  cases hcanonical : canonicalize faults disk lexical with
  | ok existing =>
      rw [hcanonical] at h
      obtain ⟨⟨⟩, hwithin, h⟩ := bind_eq_ok.1 h
      obtain ⟨rfl, rfl⟩ := Prod.mk.inj (Except.ok.inj h)
      exact .inl ⟨rfl, within_of_assert hwithin, canonicalize_direct hcanonical⟩
  | error error =>
      rw [hcanonical] at h
      cases error with
      | notFound =>
          dsimp only at h
          cases hname : lexical.getLast? with
          | none => simp [hname] at h
          | some name =>
              rw [hname] at h
              obtain ⟨directory, hdirectory, h⟩ := bind_eq_ok.1 h
              obtain ⟨⟨⟩, hwithin, h⟩ := bind_eq_ok.1 h
              obtain ⟨rfl, rfl⟩ := Prod.mk.inj (Except.ok.inj h)
              exact .inr ⟨rfl, directory, name, rfl, within_of_assert hwithin,
                canonicalize_direct (mapError_eq_ok.1 hdirectory)⟩
      | _ => simp at h

/-- A place for a file below a root: in a directory, and no directory itself. -/
structure Place (files : WorkspaceFileSystem) (tree : FileTree) (location : Location) : Prop where
  within : files.Within location
  named : location ≠ []
  parent : tree.node location.dropLast = some .directory
  noDirectory : tree.node location ≠ some .directory

/-- What is opened to be written is a place for a file below a root. -/
theorem openTarget_place {cancelled : Bool × Bool} {path : String}
    (h : files.openTarget faults disk cancelled path = .ok (location, after)) :
    files.Place disk.tree location ∧ after = (disk.openAt location).2 := by
  rw [openTarget] at h
  obtain ⟨-, h⟩ := ite_error_eq_ok.1 h
  obtain ⟨-, -, h⟩ := bind_eq_ok.1 h
  obtain ⟨⟨target, createNew⟩, htarget, h⟩ := bind_eq_ok.1 h
  obtain ⟨-, -, h⟩ := bind_eq_ok.1 h
  have hopen := mapError_eq_ok.1 h
  rcases writeTarget_cases htarget with ⟨rfl, hinside⟩ | ⟨rfl, directory, name, rfl, hinside⟩
  · obtain ⟨rfl, rfl, content, hfile⟩ := openToWrite_direct hinside.2 hopen
    have hnamed : location ≠ [] := by
      rintro rfl
      rw [disk.tree.root] at hfile
      simp at hfile
    refine ⟨⟨hinside.1, hnamed, ?_, by simp [hfile]⟩, rfl⟩
    obtain ⟨names, name, rfl⟩ := (List.eq_nil_or_concat' location).resolve_left hnamed
    rw [List.dropLast_concat]
    exact disk.tree.parent names name (by simp [hfile])
  · obtain ⟨rfl, rfl, hdirectory, hnone⟩ := openToWrite_new hinside.2 hopen
    refine ⟨⟨hinside.1.append [name], by simp, ?_, by simp [hnone]⟩, rfl⟩
    rwa [List.dropLast_concat]

/-- Writing at a place leaves a file there and everything else as it is. -/
theorem Place.write (h : files.Place disk.tree location) (content : List UInt8) :
    files.Place (disk.tree.writeFile location content) location ∧
      (disk.tree.writeFile location content).Direct location := by
  have hfile := FileTree.node_writeFile h.named h.parent h.noDirectory content
  have hparent : location.dropLast ≠ location := fun heq => by
    have hlength := congrArg List.length heq
    have hpos := List.length_pos_iff.2 h.named
    rw [List.length_dropLast] at hlength
    omega
  exact ⟨⟨h.within, h.named, by rw [FileTree.node_writeFile_of_ne hparent, h.parent],
    by simp [hfile]⟩, .inr ⟨content, hfile⟩⟩

/-- A write is refused before it opens its file and changes nothing, or it opens its file below
a root and changes nothing else; it may then fail at the content only. -/
theorem writeCancellable_cases (files : WorkspaceFileSystem) (faults : Faults) (disk : Disk)
    (cancelled : Bool × Bool) (request : WriteTextFileRequest) :
    (∃ error, files.writeCancellable faults disk cancelled request = (.error error, disk)) ∨
      ∃ location after result,
        files.writeCancellable faults disk cancelled request = (result, after) ∧
          files.Opens disk after location ∧
          ∀ error, result = .error error → error.atContent = true := by
  rw [writeCancellable]
  cases hopen : files.openTarget faults disk cancelled request.path with
  | error error => exact .inl ⟨error, rfl⟩
  | ok opened =>
      obtain ⟨location, after⟩ := opened
      obtain ⟨hplace, rfl⟩ := openTarget_place hopen
      right
      dsimp only
      -- The content is written in full or up to where it fails.
      have hopens : ∀ content, files.Opens disk
          ⟨(disk.openAt location).2.tree.writeFile location content, (disk.openAt location).2.opened⟩
          location := fun content =>
        have hempty := hplace.write []
        have hopened : files.Place (disk.openAt location).2.tree location := hempty.1
        have hwritten := hopened.write content
        ⟨⟨hplace.within, hwritten.2⟩, rfl, fun other hother =>
          (FileTree.node_writeFile_of_ne hother content).trans
            (FileTree.node_writeFile_of_ne hother [])⟩
      rw [writeAll]
      cases faults.writeAll location with
      | some failure =>
          obtain ⟨error, count⟩ := failure
          refine ⟨location, _, _, rfl, hopens _, fun error herror => ?_⟩
          obtain rfl := Except.error.inj herror
          rfl
      | none =>
          dsimp only
          cases faults.flush location with
          | some error =>
              refine ⟨location, _, _, rfl, hopens _, fun error herror => ?_⟩
              obtain rfl := Except.error.inj herror
              rfl
          | none => exact ⟨location, _, _, rfl, hopens _, fun error herror => by simp at herror⟩

end Writes

/-- The directory of a terminal is below a root. -/
theorem checkedDirectory_inside {path : Option String}
    (h : files.checkedDirectory faults disk path = .ok location) :
    files.Inside disk.tree location ∧ disk.tree.node location = some .directory := by
  rw [checkedDirectory] at h
  obtain ⟨lexical, -, h⟩ := bind_eq_ok.1 h
  obtain ⟨canonical, hcanonical, h⟩ := bind_eq_ok.1 h
  obtain ⟨⟨⟩, hwithin, h⟩ := bind_eq_ok.1 h
  obtain ⟨node, hnode, h⟩ := bind_eq_ok.1 h
  have hdirect := canonicalize_direct (mapError_eq_ok.1 hcanonical)
  cases node with
  | directory =>
      obtain rfl := Except.ok.inj h
      exact ⟨⟨within_of_assert hwithin, hdirect⟩,
        metadata_direct hdirect (mapError_eq_ok.1 hnode)⟩
  | file content => simp at h
  | link target => simp at h

section Roots

/-- A root is where one of the permitted paths leads. -/
def Leads (disk : Disk) (candidates : List String) (root : WorkspaceRoot) : Prop :=
  (∃ candidate ∈ candidates, isAbsolute candidate = true ∧ root.lexical = normalize candidate) ∧
    disk.tree.resolve root.lexical = .ok root.canonical

theorem openRoot_leads {candidate : String} {root : WorkspaceRoot}
    (h : openRoot faults disk candidate = .ok root) : Leads disk [candidate] root := by
  rw [openRoot] at h
  obtain ⟨lexical, hlexical, h⟩ := bind_eq_ok.1 h
  rw [lexicalAbsolute] at hlexical
  split at hlexical
  · rename_i habsolute
    obtain rfl := Except.ok.inj hlexical
    cases hcanonical : canonicalize faults disk (normalize candidate) with
    | error error => simp [hcanonical] at h
    | ok canonical =>
        rw [hcanonical] at h
        obtain rfl := Except.ok.inj h
        rw [canonicalize] at hcanonical
        split at hcanonical
        · simp at hcanonical
        · exact ⟨⟨candidate, by simp, habsolute, rfl⟩, hcanonical⟩
  · simp at hlexical

theorem Leads.mono {candidates more : List String} {root : WorkspaceRoot}
    (h : Leads disk candidates root) (hsub : candidates ⊆ more) : Leads disk more root := by
  obtain ⟨⟨candidate, hmem, hcandidate⟩, hresolve⟩ := h
  exact ⟨⟨candidate, hsub hmem, hcandidate⟩, hresolve⟩

theorem addRoots_leads {candidates all : List String} {roots added : List WorkspaceRoot}
    (hsub : candidates ⊆ all) (hroots : ∀ root ∈ roots, Leads disk all root)
    (h : addRoots faults disk roots candidates = .ok added) :
    ∀ root ∈ added, Leads disk all root := by
  induction candidates generalizing roots with
  | nil => exact Except.ok.inj h ▸ hroots
  | cons candidate candidates ih =>
      rw [addRoots] at h
      obtain ⟨root, hroot, h⟩ := bind_eq_ok.1 h
      refine ih (fun _ hmem => hsub (List.mem_cons_of_mem _ hmem)) ?_ h
      split
      · exact hroots
      · intro other hother
        rcases List.mem_append.1 hother with hother | hother
        · exact hroots other hother
        · obtain rfl := List.mem_singleton.1 hother
          refine (openRoot_leads hroot).mono fun path hpath => hsub ?_
          exact List.mem_singleton.1 hpath ▸ List.mem_cons_self

/-- The roots of a workspace are where its permitted paths lead. -/
theorem new_leads {root : String} {readOnly : Bool} {additionalRoots : List String}
    (h : WorkspaceFileSystem.new faults disk root readOnly additionalRoots = .ok files) :
    ∀ permitted ∈ files.roots, Leads disk (root :: additionalRoots) permitted := by
  rw [WorkspaceFileSystem.new] at h
  cases hroot : openRoot faults disk root with
  | error error => simp [hroot] at h
  | ok primary =>
      rw [hroot] at h
      dsimp only at h
      split at h
      · simp at h
      · rename_i roots hadded
        obtain rfl := Except.ok.inj h
        refine addRoots_leads (List.subset_cons_self _ _) ?_ hadded
        intro permitted hpermitted
        obtain rfl := List.mem_singleton.1 hpermitted
        exact (openRoot_leads hroot).mono (by simp)

end Roots

/-- Every read, write and directory of a terminal that is accepted is below a root, with all links
resolved, whatever its path is and whether the file is there or not. A request that is refused
changes no file; neither does a read. The roots are where the permitted paths lead. -/
theorem requests_inside (files : WorkspaceFileSystem) (faults : Faults) (disk : Disk) :
    (∀ (buffering : Buffering) (cancelled : Bool) (request : ReadTextFileRequest),
      let read := files.readCancellable faults disk buffering cancelled request
      (∀ text, read.1 = .ok text → ∃ location, files.Opens disk read.2 location) ∧
        (read.2 = disk ∨ ∃ location, files.Opens disk read.2 location) ∧
        read.2.tree = disk.tree) ∧
      (∀ (cancelled : Bool × Bool) (request : WriteTextFileRequest),
        let write := files.writeCancellable faults disk cancelled request
        (write.1 = .ok () → ∃ location, files.Opens disk write.2 location) ∧
          (write.2 = disk ∨ ∃ location, files.Opens disk write.2 location) ∧
          ∀ error, write.1 = .error error → error.atContent = false → write.2 = disk) ∧
      (∀ (path : Option String) (location : Location),
        files.checkedDirectory faults disk path = .ok location →
          files.Inside disk.tree location ∧ disk.tree.node location = some .directory) ∧
      ∀ (start : Disk) (root : String) (readOnly : Bool) (additionalRoots : List String),
        WorkspaceFileSystem.new faults start root readOnly additionalRoots = .ok files →
          ∀ permitted ∈ files.roots, Leads start (root :: additionalRoots) permitted := by
  refine ⟨fun buffering cancelled request => ?_, fun cancelled request => ?_,
    fun path location => checkedDirectory_inside, fun start root readOnly additionalRoots =>
      new_leads⟩
  · rcases readCancellable_cases files faults disk buffering cancelled request with
      ⟨error, hread⟩ | ⟨location, after, result, hread, hopens, htree⟩
    · rw [hread]
      exact ⟨fun text htext => by simp at htext, .inl rfl, rfl⟩
    · rw [hread]
      exact ⟨fun _ _ => ⟨location, hopens⟩, .inr ⟨location, hopens⟩, htree⟩
  · rcases writeCancellable_cases files faults disk cancelled request with
      ⟨error, hwrite⟩ | ⟨location, after, result, hwrite, hopens, hcontent⟩
    · rw [hwrite]
      exact ⟨fun hok => by simp at hok, .inl rfl, fun _ _ _ => rfl⟩
    · rw [hwrite]
      refine ⟨fun _ => ⟨location, hopens⟩, .inr ⟨location, hopens⟩, fun error herror hearly => ?_⟩
      rw [hcontent error herror] at hearly
      simp at hearly

section Examples

/-- A workspace `/w` with a link to a file outside that is not there. -/
def danglingTree : FileTree where
  node location :=
    if location = [] ∨ location = [['w']] then some .directory
    else if location = [['w'], ['l']] then some (.link ['/', 'x'])
    else none
  root := rfl
  parent location name h := by
    rcases location with _ | ⟨first, _ | ⟨second, rest⟩⟩
    · rfl
    · by_cases hfirst : first = ['w']
      · simp [hfirst]
      · simp [hfirst] at h
    · simp at h

def noFaults : Faults := ⟨fun _ => none, fun _ => none, fun _ => none, fun _ => none,
  fun _ => none, fun _ => none⟩

def wholeWorkspace : WorkspaceFileSystem := ⟨[⟨[['w']], [['w']]⟩], by simp, [], false⟩

/-- A new file is created, with the dot segments of its path removed. -/
example : (wholeWorkspace.writeCancellable noFaults ⟨danglingTree, []⟩ (false, false)
    ⟨"/w/a/../n", "text"⟩).2.opened = [[['w'], ['n']]] := by decide +kernel

/-- A link that leads nowhere is neither followed nor replaced. -/
example : (wholeWorkspace.writeCancellable noFaults ⟨danglingTree, []⟩ (false, false)
    ⟨"/w/l", "text"⟩).1 =
      .error (.write .alreadyExists "/w/l" "create new file" false) := by decide +kernel

end Examples

end WorkspaceFileSystem

end Attyd.Files
