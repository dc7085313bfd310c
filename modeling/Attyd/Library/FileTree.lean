import Mathlib.Data.List.Basic
import Mathlib.Data.List.Infix

/-!
# A tree of files with links

A tree has directories, files and links at locations, which are the names on the way from the
root. A path is a text; it is resolved name by name, and a link on the way is replaced by the
path it holds. A location that a path resolves to is reached through directories alone and is
no link itself, so it resolves to itself.

## Implementation notes

Resolution stops with an error when it has followed too many links. It is a recursion on the
links that may still be followed, and within that on the names that are left.
-/

namespace Attyd

inductive IoError where
  | notFound
  | notADirectory
  | isADirectory
  | alreadyExists
  | filesystemLoop
  | other (reason : String)
deriving DecidableEq

abbrev Name := List Char

/-- The names from the root on. -/
abbrev Location := List Name

/-- A part of a path; the current directory is no part of it. -/
inductive Component where
  | parentDir
  | normal (name : Name)
deriving DecidableEq

/-- The parts of a path between its separators. -/
def components (path : List Char) : List Component :=
  (path.splitOn '/').filterMap fun name =>
    if name = [] ∨ name = ['.'] then none
    else if name = ['.', '.'] then some .parentDir
    else some (.normal name)

inductive Node where
  | directory
  | file (content : List UInt8)
  | link (target : List Char)
deriving DecidableEq

/-- What is at each location; all but the root is in a directory. -/
structure FileTree where
  node : Location → Option Node
  root : node [] = some .directory
  parent : ∀ location name, node (location ++ [name]) ≠ none → node location = some .directory

namespace FileTree

variable (self : FileTree)

/-- Resolve parts from a directory on; `follow` resolves what a link leads to. -/
def walkWith (follow : Location → List Component → Except IoError Location) :
    Location → List Component → Except IoError Location
  | here, [] => .ok here
  | here, .parentDir :: rest => walkWith follow here.dropLast rest
  | here, .normal name :: rest =>
      match self.node (here ++ [name]) with
      | none => .error .notFound
      | some .directory => walkWith follow (here ++ [name]) rest
      | some (.file _) => if rest = [] then .ok (here ++ [name]) else .error .notADirectory
      | some (.link target) =>
          follow (if target.head? = some '/' then [] else here) (components target ++ rest)

/-- Resolve parts from a directory on, with at most so many links on the way. -/
def walk : ℕ → Location → List Component → Except IoError Location
  | 0 => self.walkWith fun _ _ => .error .filesystemLoop
  | links + 1 => self.walkWith (walk links)

/-- The links that are followed at most. -/
def maxLinks : ℕ := 40

/-- Where a path of names from the root on leads. -/
def resolve (path : Location) : Except IoError Location :=
  self.walk maxLinks [] (path.map .normal)

/-- A location that is there and is no link; all on the way to it are directories. -/
def Direct (location : Location) : Prop :=
  self.node location = some .directory ∨ ∃ content, self.node location = some (.file content)

variable {self}

theorem node_dropLast {location : Location} (h : self.node location = some .directory) :
    self.node location.dropLast = some .directory := by
  induction location using List.reverseRecOn with
  | nil => exact h
  | append_singleton location name ih =>
      rw [List.dropLast_concat]
      exact self.parent location name (by rw [h]; exact Option.some_ne_none _)

/-- All that is on the way to something is a directory. -/
theorem node_append {location names : Location} (hnames : names ≠ [])
    (h : self.node (location ++ names) ≠ none) : self.node location = some .directory := by
  induction names using List.reverseRecOn with
  | nil => exact absurd rfl hnames
  | append_singleton names name ih =>
      rw [← List.append_assoc] at h
      have hdirectory := self.parent _ name h
      by_cases hempty : names = []
      · rwa [hempty, List.append_nil] at hdirectory
      · exact ih hempty (by rw [hdirectory]; exact Option.some_ne_none _)

theorem direct_walkWith {follow : Location → List Component → Except IoError Location}
    (hfollow : ∀ here rest location, self.node here = some .directory →
      follow here rest = .ok location → self.Direct location)
    {here location : Location} {parts : List Component} (hhere : self.node here = some .directory)
    (h : self.walkWith follow here parts = .ok location) : self.Direct location := by
  induction parts generalizing here with
  | nil =>
      obtain rfl := Except.ok.inj h
      exact .inl hhere
  | cons part rest ih =>
      cases part with
      | parentDir => exact ih (node_dropLast hhere) h
      | normal name =>
          rw [walkWith] at h
          cases hnode : self.node (here ++ [name]) with
          | none => simp [hnode] at h
          | some node =>
              rw [hnode] at h
              cases node with
              | directory => exact ih hnode h
              | file content =>
                  by_cases hrest : rest = []
                  · rw [if_pos hrest] at h
                    obtain rfl := Except.ok.inj h
                    exact .inr ⟨content, hnode⟩
                  · simp [hrest] at h
              | link target =>
                  refine hfollow _ _ _ ?_ h
                  split
                  · exact self.root
                  · exact hhere

/-- What a walk from a directory leads to is direct. -/
theorem direct_walk (links : ℕ) {here location : Location} {parts : List Component}
    (hhere : self.node here = some .directory) (h : self.walk links here parts = .ok location) :
    self.Direct location := by
  induction links generalizing here location parts with
  | zero => exact direct_walkWith (fun _ _ _ _ h => by simp at h) hhere h
  | succ links ih => exact direct_walkWith (fun _ _ _ hhere h => ih hhere h) hhere h

/-- Resolved paths are direct. -/
theorem direct_resolve {path location : Location} (h : self.resolve path = .ok location) :
    self.Direct location :=
  direct_walk maxLinks self.root h

theorem Direct.ne_none {location : Location} (h : self.Direct location) :
    self.node location ≠ none := by
  rcases h with h | ⟨content, h⟩
  · simp [h]
  · simp [h]

theorem walkWith_direct (follow : Location → List Component → Except IoError Location)
    (here : Location) {names : Location} (h : self.Direct (here ++ names)) :
    self.walkWith follow here (names.map .normal) = .ok (here ++ names) := by
  induction names generalizing here with
  | nil => simp [walkWith]
  | cons name names ih =>
      have hthere : here ++ name :: names = (here ++ [name]) ++ names := by simp
      rw [hthere] at h ⊢
      by_cases hempty : names = []
      · subst hempty
        rw [List.append_nil] at h
        rcases h with h | ⟨content, h⟩
        · simp [walkWith, h]
        · simp [walkWith, h]
      · rw [List.map_cons, walkWith, node_append hempty h.ne_none]
        exact ih _ h

/-- A direct location resolves to itself. -/
theorem resolve_direct {location : Location} (h : self.Direct location) :
    self.resolve location = .ok location :=
  walkWith_direct _ [] h

/-! ## Writing a file -/

variable (self)

/-- Write a file in a directory, over a file or link or anew; elsewhere nothing is written. -/
def writeFile (location : Location) (content : List UInt8) : FileTree :=
  if h : location ≠ [] ∧ self.node location.dropLast = some .directory ∧
      self.node location ≠ some .directory then
    { node := fun other => if other = location then some (.file content) else self.node other
      root := by rw [if_neg (Ne.symm h.1), self.root]
      parent := by
        intro other name hnode
        by_cases hself : other ++ [name] = location
        · have hdirectory : self.node other = some .directory := by
            rw [← hself, List.dropLast_concat] at h
            exact h.2.1
          have hother : other ≠ location := fun heq => by
            have hlength := congrArg List.length (hself.trans heq.symm)
            simp at hlength
          rw [if_neg hother, hdirectory]
        · rw [if_neg hself] at hnode
          have hdirectory := self.parent other name hnode
          have hother : other ≠ location := fun heq => h.2.2 (heq ▸ hdirectory)
          rw [if_neg hother, hdirectory] }
  else self

variable {self}

/-- Only the file that is written changes. -/
theorem node_writeFile_of_ne {location other : Location} (hne : other ≠ location)
    (content : List UInt8) : (self.writeFile location content).node other = self.node other := by
  unfold writeFile
  split
  · exact if_neg hne
  · rfl

theorem node_writeFile {location : Location} (hroot : location ≠ [])
    (hparent : self.node location.dropLast = some .directory)
    (hnode : self.node location ≠ some .directory) (content : List UInt8) :
    (self.writeFile location content).node location = some (.file content) := by
  rw [writeFile, dif_pos ⟨hroot, hparent, hnode⟩]
  exact if_pos rfl

end FileTree

end Attyd
