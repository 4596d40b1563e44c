import ClotoCore.Installer.Catalog
import ClotoCore.Installer.Disk

/-!
# The installer's own file operations

The calls of Go's `os` package the installer makes, on a file system and a log
of what the installer itself made, wrote or removed.  Every call may fail for
reasons of the system.  Links are not followed: extraction refuses them.
-/

namespace ClotoCore.Installer

open ClotoCore.Encoding ClotoCore.Lexical ClotoCore.Seal

/-- What the installer does to a path. -/
inductive Touch where
  /-- A directory is created. -/
  | made (path : FilePath)
  /-- A file is created, replaced or appended to. -/
  | wrote (path : FilePath)
  /-- What is there is removed. -/
  | removed (path : FilePath)
  /-- The file is read for the integrity check. -/
  | hashed (path : FilePath)

/-- The file system, and what the installer did to it so far. -/
structure Machine where
  disk : Disk
  touched : List Touch

/-- Where a path leads from a working directory. -/
def locate (cwd : RelPath) (path : FilePath) : RelPath :=
  if path.rooted then path.names else (((Path.start true).descend cwd).join path.segments).names

theorem locate_descend (cwd : RelPath) (root : FilePath) (names : List Name) :
    locate cwd (root.descend names) = locate cwd root ++ names := by
  by_cases rooted : root.rooted = true
  · have rootedBelow : (root.descend names).rooted = true := rooted
    rw [locate, locate, if_pos rooted, if_pos rootedBelow]
    rfl
  · have rootedBelow : ¬(root.descend names).rooted = true := rooted
    rw [locate, locate, if_neg rooted, if_neg rootedBelow, Path.segments_descend, Path.join_append,
      Path.join_names]
    rfl

/-- What lies inside a directory is located inside it. -/
theorem locate_mono {cwd : RelPath} {root path : FilePath} (within : root.Within path) :
    locate cwd root <+: locate cwd path := by
  rcases Path.within_iff.mp within with ⟨names, rfl⟩
  rw [locate_descend]
  exact List.prefix_append _ _

/-- How writing a file goes wrong. -/
inductive WriteFault where
  /-- The file cannot be opened. -/
  | unopened
  /-- Writing stops behind some of the bytes. -/
  | cut (written : Nat)

/-- How removing a directory goes wrong: some of what it holds stays. -/
abbrev RemoveFault := Disk

section Calls

variable (cwd : RelPath)

/-- The object a path leads to. -/
def Machine.find (machine : Machine) (path : FilePath) : Option Node :=
  machine.disk.get (locate cwd path)

/-- `os.ReadFile`, where the system lets it. -/
def Machine.readFile (machine : Machine) (path : FilePath) : Option Bytes :=
  match machine.find cwd path with
  | some (.leaf (.file content)) => some content
  | _ => none

/-- Put an object at a path and log what was done. -/
def Machine.put (machine : Machine) (path : FilePath) (object : Option Object) (touch : Touch) :
    Machine where
  disk := machine.disk.set (locate cwd path) object
  touched := machine.touched ++ [touch]

/-- Make the directories of a list, outermost first, that are not there. -/
def Machine.mkdirEach (fails : FilePath → Bool) : List FilePath → Machine → Machine × Bool
  | [], machine => (machine, true)
  | path :: rest, machine =>
      match machine.find cwd path with
      | some (.directory _) => mkdirEach fails rest machine
      | some (.leaf _) => (machine, false)
      | none =>
          if fails path = true ∨ ¬machine.disk.Places (locate cwd path) then (machine, false)
          else mkdirEach fails rest (machine.put cwd path (some .emptyDirectory) (.made path))

/-- `os.MkdirAll` -/
def Machine.mkdirAll (machine : Machine) (fails : FilePath → Bool) (path : FilePath) :
    Machine × Bool :=
  machine.mkdirEach cwd fails path.lineage

/-- Write a file, replacing what it held.  A directory is not replaced. -/
def Machine.writeFile (machine : Machine) (fault : Option WriteFault) (path : FilePath)
    (content : Bytes) : Machine × Bool :=
  if machine.disk.HasDirectory (locate cwd path) ∨ ¬machine.disk.Places (locate cwd path) then
    (machine, false)
  else
    match fault with
    | none => (machine.put cwd path (some (.file content)) (.wrote path), true)
    | some .unopened => (machine, false)
    | some (.cut written) =>
        (machine.put cwd path (some (.file (content.take written))) (.wrote path), false)

/-- `os.Remove`, of a file or an empty directory. -/
def Machine.remove (machine : Machine) (fails : Bool) (path : FilePath) : Machine × Bool :=
  match machine.find cwd path with
  | none => (machine, false)
  | some (.directory (_ :: _)) => (machine, false)
  | some _ =>
      if fails then (machine, false) else (machine.put cwd path none (.removed path), true)

/-- `os.RemoveAll`.  It removes the directory last, so a removal that fails leaves it. -/
def Machine.removeAll (machine : Machine) (fault : Option RemoveFault) (path : FilePath) :
    Machine × Bool :=
  match machine.find cwd path with
  | none => (machine, true)
  | some node =>
      match fault, node with
      | none, _ => (machine.put cwd path none (.removed path), true)
      | some _, .leaf _ => (machine, false)
      | some left, .directory _ =>
          (machine.put cwd path (some (.ofTree left)) (.removed path), false)

/-- Whether one object can be moved over another. -/
def replaces : Option Node → Option Node → Bool
  | some _, none => true
  | some (.leaf _), some (.leaf _) => true
  | _, _ => false

/-- `os.Rename`.  A directory is neither replaced nor put in a file's place. -/
def Machine.rename (machine : Machine) (fails : Bool) (source target : FilePath) :
    Machine × Bool :=
  if fails = true ∨ replaces (machine.find cwd source) (machine.find cwd target) = false
      ∨ locate cwd source <+: locate cwd target ∨ ¬machine.disk.Places (locate cwd target) then
    (machine, false)
  else
    ({ disk := (machine.disk.set (locate cwd target) (machine.disk.object (locate cwd source))).set
        (locate cwd source) none
       touched := machine.touched ++ [.wrote target, .removed source] }, true)

end Calls

/-! ## What the calls touch -/

/-- Everything done between two machines is allowed. -/
def Only (allowed : Touch → Prop) (before after : Machine) : Prop :=
  ∃ added, after.touched = before.touched ++ added ∧ ∀ touch ∈ added, allowed touch

theorem Only.refl (allowed : Touch → Prop) (machine : Machine) : Only allowed machine machine :=
  ⟨[], by simp, by simp⟩

theorem Only.trans {allowed : Touch → Prop} {first second third : Machine}
    (left : Only allowed first second) (right : Only allowed second third) :
    Only allowed first third := by
  rcases left with ⟨early, earlyEq, earlyFine⟩
  rcases right with ⟨late, lateEq, lateFine⟩
  refine ⟨early ++ late, by rw [lateEq, earlyEq, List.append_assoc], ?_⟩
  intro touch mem
  rcases List.mem_append.mp mem with inEarly | inLate
  · exact earlyFine touch inEarly
  · exact lateFine touch inLate

theorem Only.mono {allowed wider : Touch → Prop} {before after : Machine}
    (only : Only allowed before after) (implies : ∀ touch, allowed touch → wider touch) :
    Only wider before after := by
  rcases only with ⟨added, addedEq, fine⟩
  exact ⟨added, addedEq, fun touch mem => implies touch (fine touch mem)⟩

/-- What is done stays done. -/
theorem Only.mem {allowed : Touch → Prop} {before after : Machine}
    (only : Only allowed before after)
    {touch : Touch} (mem : touch ∈ before.touched) : touch ∈ after.touched := by
  rcases only with ⟨added, addedEq, _⟩
  rw [addedEq]
  exact List.mem_append_left _ mem

variable {cwd : RelPath} {allowed : Touch → Prop} {machine : Machine} {path : FilePath}

theorem Only.put {object : Option Object} {touch : Touch} (fine : allowed touch) :
    Only allowed machine (machine.put cwd path object touch) :=
  ⟨[touch], rfl, fun _ mem => List.mem_singleton.mp mem ▸ fine⟩

theorem Only.mkdirEach {fails : FilePath → Bool} {paths : List FilePath}
    (fine : ∀ path ∈ paths, allowed (.made path)) :
    Only allowed machine (machine.mkdirEach cwd fails paths).1 := by
  induction paths generalizing machine with
  | nil => exact Only.refl _ _
  | cons path rest ih =>
      have restFine : ∀ path ∈ rest, allowed (.made path) := fun path mem =>
        fine path (List.mem_cons_of_mem _ mem)
      rw [Machine.mkdirEach]
      split
      · exact ih restFine
      · exact Only.refl _ _
      · split
        · exact Only.refl _ _
        · exact (Only.put (fine path List.mem_cons_self)).trans (ih restFine)

theorem Only.mkdirAll {fails : FilePath → Bool}
    (fine : ∀ ancestor, ancestor.Within path → allowed (.made ancestor)) :
    Only allowed machine (machine.mkdirAll cwd fails path).1 :=
  Only.mkdirEach fun ancestor mem => fine ancestor (Path.within_of_mem_lineage mem)

theorem Only.writeFile {fault : Option WriteFault} {content : Bytes}
    (fine : allowed (.wrote path)) :
    Only allowed machine (machine.writeFile cwd fault path content).1 := by
  unfold Machine.writeFile
  split
  · exact Only.refl _ _
  · split
    · exact Only.put fine
    · exact Only.refl _ _
    · exact Only.put fine

theorem Only.remove {fails : Bool} (fine : allowed (.removed path)) :
    Only allowed machine (machine.remove cwd fails path).1 := by
  rw [Machine.remove]
  split
  · exact Only.refl _ _
  · exact Only.refl _ _
  · split
    · exact Only.refl _ _
    · exact Only.put fine

theorem Only.removeAll {fault : Option RemoveFault} (fine : allowed (.removed path)) :
    Only allowed machine (machine.removeAll cwd fault path).1 := by
  rw [Machine.removeAll]
  split
  · exact Only.refl _ _
  · split
    · exact Only.put fine
    · exact Only.refl _ _
    · exact Only.put fine

theorem Only.rename {fails : Bool} {source target : FilePath} (moved : allowed (.removed source))
    (placed : allowed (.wrote target)) :
    Only allowed machine (machine.rename cwd fails source target).1 := by
  rw [Machine.rename]
  split
  · exact Only.refl _ _
  · refine ⟨[.wrote target, .removed source], rfl, ?_⟩
    intro touch mem
    simp only [List.mem_cons, List.not_mem_nil, or_false] at mem
    rcases mem with rfl | rfl
    · exact placed
    · exact moved

/-! ## What the calls leave alone -/

variable {other : RelPath}

theorem find_mkdirEach {fails : FilePath → Bool} {paths : List FilePath}
    (clear : ∀ path ∈ paths, ¬other <+: locate cwd path) :
    (machine.mkdirEach cwd fails paths).1.disk.get other = machine.disk.get other := by
  induction paths generalizing machine with
  | nil => rfl
  | cons path rest ih =>
      have restClear : ∀ path ∈ rest, ¬other <+: locate cwd path := fun path mem =>
        clear path (List.mem_cons_of_mem _ mem)
      rw [Machine.mkdirEach]
      split
      · exact ih restClear
      · rfl
      · rename_i absent
        split
        · rfl
        · rw [ih restClear]
          exact Disk.get_set_emptyDirectory absent (clear path List.mem_cons_self)

theorem find_writeFile {fault : Option WriteFault} {content : Bytes}
    (apart : Apart (locate cwd path) other) :
    (machine.writeFile cwd fault path content).1.disk.get other = machine.disk.get other := by
  unfold Machine.writeFile
  split
  · rfl
  · split
    · exact Disk.get_set_of_apart _ apart
    · rfl
    · exact Disk.get_set_of_apart _ apart

theorem find_remove {fails : Bool} (apart : Apart (locate cwd path) other) :
    (machine.remove cwd fails path).1.disk.get other = machine.disk.get other := by
  rw [Machine.remove]
  split
  · rfl
  · rfl
  · split
    · rfl
    · exact Disk.get_set_of_apart _ apart

theorem find_removeAll {fault : Option RemoveFault} (apart : Apart (locate cwd path) other) :
    (machine.removeAll cwd fault path).1.disk.get other = machine.disk.get other := by
  rw [Machine.removeAll]
  split
  · rfl
  · split
    · exact Disk.get_set_of_apart _ apart
    · rfl
    · exact Disk.get_set_of_apart _ apart

theorem hasDirectory_mkdirEach {fails : FilePath → Bool} {paths : List FilePath}
    (there : machine.disk.HasDirectory other) :
    (machine.mkdirEach cwd fails paths).1.disk.HasDirectory other := by
  induction paths generalizing machine with
  | nil => exact there
  | cons path rest ih =>
      rw [Machine.mkdirEach]
      split
      · exact ih there
      · exact there
      · rename_i absent
        split
        · exact there
        · apply ih
          apply Disk.HasDirectory.set _ _ there
          rw [Machine.find] at absent
          simp [Disk.HasDirectory, absent]

theorem hasDirectory_writeFile {fault : Option WriteFault} {content : Bytes}
    (there : machine.disk.HasDirectory other) :
    (machine.writeFile cwd fault path content).1.disk.HasDirectory other := by
  unfold Machine.writeFile
  split
  · exact there
  · rename_i writable
    simp only [not_or] at writable
    split
    · exact Disk.HasDirectory.set _ writable.1 there
    · exact there
    · exact Disk.HasDirectory.set _ writable.1 there

/-- Directories that could be made are there. -/
theorem hasDirectory_of_mkdirEach {fails : FilePath → Bool} {paths : List FilePath}
    (made : (machine.mkdirEach cwd fails paths).2 = true) :
    ∀ path ∈ paths, (machine.mkdirEach cwd fails paths).1.disk.HasDirectory (locate cwd path) := by
  induction paths generalizing machine with
  | nil => simp
  | cons path rest ih =>
      intro each mem
      cases found : machine.find cwd path with
      | none =>
          simp only [Machine.mkdirEach, found] at made ⊢
          split at made
          · cases made
          · rename_i possible
            rw [if_neg possible]
            simp only [not_or, not_not] at possible
            rcases List.mem_cons.mp mem with rfl | there
            · apply hasDirectory_mkdirEach
              rw [Disk.HasDirectory, Machine.put, Disk.get_set_self _ possible.2]
              rfl
            · exact ih made each there
      | some node =>
          cases node with
          | leaf leaf => simp [Machine.mkdirEach, found] at made
          | directory entries =>
              simp only [Machine.mkdirEach, found] at made ⊢
              rcases List.mem_cons.mp mem with rfl | there
              · apply hasDirectory_mkdirEach
                exact Disk.hasDirectory_iff.mpr ⟨entries, found⟩
              · exact ih made each there

/-! ## What removing and moving achieve -/

theorem removeAll_absent (named : locate cwd path ≠ []) :
    (machine.removeAll cwd none path).1.disk.get (locate cwd path) = none := by
  rw [Machine.removeAll]
  split
  · assumption
  · rename_i node found
    exact Disk.get_set_self none (Disk.places_of_get found named)

/-- A removal that fails leaves the directory. -/
theorem removeAll_left (named : locate cwd path ≠ [])
    (there : machine.disk.HasDirectory (locate cwd path)) (left : RemoveFault) :
    (machine.removeAll cwd (some left) path).1.disk.HasDirectory (locate cwd path) := by
  rcases Disk.hasDirectory_iff.mp there with ⟨entries, found⟩
  have foundAt : machine.find cwd path = some (.directory entries) := found
  simp only [Machine.removeAll, foundAt, Machine.put, Disk.HasDirectory]
  rw [Disk.get_set_self _ (Disk.places_of_get found named)]
  rfl

/-- Something that `os.Remove` can remove. -/
def removable : Node → Bool
  | .directory (_ :: _) => false
  | _ => true

theorem remove_absent_iff {fails : Bool} (named : locate cwd path ≠ []) :
    (machine.remove cwd fails path).1.disk.get (locate cwd path) = none ↔
      ∀ node, machine.find cwd path = some node → fails = false ∧ removable node = true := by
  cases found : machine.find cwd path with
  | none =>
      have absent : machine.disk.get (locate cwd path) = none := found
      simp [Machine.remove, found, absent]
  | some node =>
      have foundAt : machine.disk.get (locate cwd path) = some node := found
      have gone : (machine.put cwd path none (.removed path)).disk.get (locate cwd path) = none :=
        Disk.get_set_self none (Disk.places_of_get foundAt named)
      cases node with
      | leaf leaf =>
          cases fails with
          | true => simp [Machine.remove, found, foundAt]
          | false => simp [Machine.remove, found, removable, gone]
      | directory entries =>
          cases entries with
          | nil =>
              cases fails with
              | true => simp [Machine.remove, found, foundAt]
              | false => simp [Machine.remove, found, removable, gone]
          | cons entry rest => simp [Machine.remove, found, foundAt, removable]

theorem rename_refused {fails : Bool} {source target : FilePath}
    (refused : (machine.rename cwd fails source target).2 = false) :
    (machine.rename cwd fails source target).1 = machine := by
  unfold Machine.rename at refused ⊢
  split
  · rfl
  · rename_i possible
    rw [if_neg possible] at refused
    cases refused

/-- What is moved is at its new place. -/
theorem rename_moved {fails : Bool} {source target : FilePath}
    (moved : (machine.rename cwd fails source target).2 = true)
    (apart : Apart (locate cwd source) (locate cwd target)) :
    (machine.rename cwd fails source target).1.disk.get (locate cwd target)
      = machine.disk.get (locate cwd source) := by
  unfold Machine.rename at moved ⊢
  split
  · rename_i impossible
    rw [if_pos impossible] at moved
    cases moved
  · rename_i possible
    simp only [not_or, not_not] at possible
    rw [Disk.get_set_of_apart none apart, Disk.get_set_self _ possible.2.2.2,
      Disk.map_node_object]

/-- A directory that could be made is there. -/
theorem hasDirectory_of_mkdirAll {fails : FilePath → Bool} (named : path.names ≠ [])
    (made : (machine.mkdirAll cwd fails path).2 = true) :
    (machine.mkdirAll cwd fails path).1.disk.HasDirectory (locate cwd path) :=
  hasDirectory_of_mkdirEach made path (Path.mem_lineage named)

end ClotoCore.Installer
