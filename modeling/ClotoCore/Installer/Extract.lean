import ClotoCore.Installer.System

/-!
# Extraction

A gzipped tarball is unpacked entry by entry.  Links and special files are
refused, a destination outside the target is refused, and the bytes and entries
of one archive are bounded.  Whatever the archive holds and wherever it stops,
extraction stays inside its target.
-/

namespace ClotoCore.Installer

open ClotoCore.Encoding ClotoCore.Lexical
open ClotoCore.Seal (Name RelPath separator)

/-! ## Archives -/

/-- `tar.Header`, with the content that follows it. -/
structure Header where
  name : Bytes
  typeflag : UInt8
  content : Bytes

/-- What reading an archive yields. -/
structure Archive where
  entries : List Header
  /-- Whether reading on behind the last entry fails. -/
  damaged : Bool

/-- `TypeReg`, `TypeRegA`, `TypeCont` and `TypeGNUSparse`. -/
def regularTypes : List UInt8 := [0x30, 0x00, 0x37, 0x53]

/-- `TypeDir` -/
def typeDir : UInt8 := 0x35

/-- `TypeSymlink`, `TypeLink`, `TypeChar`, `TypeBlock` and `TypeFifo`. -/
def refusedTypes : List UInt8 := [0x32, 0x31, 0x33, 0x34, 0x36]

/-- `TypeXGlobalHeader` and `TypeXHeader`. -/
def metadataTypes : List UInt8 := [0x67, 0x78]

/-- `isMetadata` -/
def isMetadata (header : Header) : Bool :=
  metadataTypes.contains header.typeflag

/-- `components` -/
def components (name : Bytes) : List Bytes :=
  let marker := if name.head? = some separator then [[separator]] else []
  match name.splitOn separator with
  | [] => marker
  | first :: rest =>
      marker ++ [first].filter (fun element => element != [])
        ++ rest.filter fun element => element != [] && element != utf8 "."

/-- `startsWith` -/
def startsWith (path front : List Bytes) : Bool :=
  front.isPrefixOf path

/-- `destination`.  A leading separator makes the result absolute. -/
def destination (target : FilePath) (rel : List Bytes) : FilePath :=
  match rel with
  | [] => target
  | first :: rest =>
      if first = [separator] then (Path.start true).join (rest.map segmentOf)
      else target.join (rel.map segmentOf)

/-- `validateDest` -/
def validateDest (target dest : FilePath) : Bool :=
  match target.rel dest with
  | none => false
  | some way => !decide (Leaves way)

/-- `detectSharedPrefix`, from the entries still to be read, the prefix so far and
whether something lies under it. -/
def detectFrom (damaged : Bool) : List Header → Option Bytes → Bool → Option (Option Bytes)
  | [], shared, nested =>
      if damaged then none else some (if nested then shared else none)
  | header :: rest, shared, nested =>
      if isMetadata header then detectFrom damaged rest shared nested
      else
        match components header.name with
        | [] => detectFrom damaged rest shared nested
        | first :: more =>
            if more = [] ∧ header.typeflag ≠ typeDir then some none
            else
              match shared with
              | none => detectFrom damaged rest (some first) (nested || more != [])
              | some known =>
                  if known = first then detectFrom damaged rest shared (nested || more != [])
                  else some none

/-- `detectSharedPrefix`; `none` when the archive cannot be read. -/
def detectSharedPrefix (archive : Archive) : Option (Option Bytes) :=
  detectFrom archive.damaged archive.entries none false

/-! ## Writing -/

/-- `MaxExtractedBytes` -/
def maxExtractedBytes : Nat := 512 * 1024 * 1024

/-- `MaxExtractedEntries` -/
def maxExtractedEntries : Nat := 20000

/-- `budget` -/
structure Budget where
  remainingBytes : Nat
  remainingEntries : Nat

/-- `newBudget` -/
def newBudget : Budget where
  remainingBytes := maxExtractedBytes
  remainingEntries := maxExtractedEntries

/-- Why an extraction stops. -/
inductive ExtractError where
  /-- Path traversal detected. -/
  | traversal (dest : FilePath)
  /-- The archive carries too many entries. -/
  | tooManyEntries
  /-- Archives may not carry links or special files. -/
  | linkOrSpecial (dest : FilePath) (typeflag : UInt8)
  /-- The archive expands past the limit. -/
  | tooLarge (dest : FilePath)
  /-- The tarball contains no files under the subdirectory. -/
  | noFiles (subdir : Bytes)
  /-- The archive cannot be read, or the system refuses a call. -/
  | io

/-- What goes wrong in the system at one entry. -/
structure EntryFault where
  /-- The entry cannot be read. -/
  next : Bool
  mkdir : FilePath → Bool
  write : Option WriteFault
  close : Bool

/-- Nothing goes wrong. -/
def EntryFault.none : EntryFault where
  next := false
  mkdir _ := false
  write := .none
  close := false

/-- What goes wrong in the system during an extraction. -/
structure ExtractFaults where
  /-- The archive cannot be read through the first time. -/
  detect : Bool
  /-- The archive cannot be opened again. -/
  reopen : Bool
  entries : Nat → EntryFault

section Extraction

variable (cwd : RelPath)

/-- `writeEntry` -/
def writeEntry (fault : EntryFault) (header : Header) (dest : FilePath) (budget : Budget)
    (machine : Machine) : Machine × Except ExtractError (Budget × Bool) :=
  if budget.remainingEntries = 0 then (machine, .error .tooManyEntries)
  else
    let charged := { budget with remainingEntries := budget.remainingEntries - 1 }
    if header.typeflag = typeDir then
      let made := machine.mkdirAll cwd fault.mkdir dest
      (made.1, if made.2 then .ok (charged, false) else .error .io)
    else if regularTypes.contains header.typeflag then
      let made := machine.mkdirAll cwd fault.mkdir (dir dest)
      if made.2 then
        -- one byte past the allowance tells an overrun from an exact fit
        let limit := budget.remainingBytes
        let written := made.1.writeFile cwd fault.write dest (header.content.take (limit + 1))
        (written.1,
          if written.2 = false ∨ fault.close = true then .error .io
          else if limit < header.content.length then .error (.tooLarge dest)
          else .ok ({ charged with remainingBytes := limit - header.content.length }, true))
      else (made.1, .error .io)
    else if refusedTypes.contains header.typeflag then
      (machine, .error (.linkOrSpecial dest header.typeflag))
    else (machine, .ok (charged, false))

/-- What is left of a name behind the shared prefix, if it is under it. -/
def stripPrefix (shared : Option Bytes) (parts : List Bytes) : Option (List Bytes) :=
  match shared with
  | none => some parts
  | some first => if startsWith parts [first] then some (parts.drop 1) else none

/-- The loop over the entries: those `wanted` are written, and whether a file
`counted` was among them is remembered. -/
def extractEach (target : FilePath) (shared : Option Bytes) (wanted counted : List Bytes → Bool)
    (faults : Nat → EntryFault) (damaged : Bool) :
    Nat → List Header → Budget → Bool → Machine → Machine × Except ExtractError Bool
  | _, [], _, extracted, machine => (machine, if damaged then .error .io else .ok extracted)
  | index, header :: rest, budget, extracted, machine =>
      if (faults index).next then (machine, .error .io)
      else if isMetadata header then
        extractEach target shared wanted counted faults damaged (index + 1) rest budget extracted
          machine
      else
        match stripPrefix shared (components header.name) with
        | none =>
            extractEach target shared wanted counted faults damaged
              (index + 1) rest budget extracted
              machine
        | some rel =>
            if rel = [] ∨ wanted rel = false then
              extractEach target shared wanted counted faults damaged (index + 1) rest budget
                extracted machine
            else if validateDest target (destination target rel) then
              let entry :=
                writeEntry cwd (faults index) header (destination target rel) budget machine
              match entry.2 with
              | .error error => (entry.1, .error error)
              | .ok (left, wrote) =>
                  extractEach target shared wanted counted faults damaged (index + 1) rest left
                    (extracted || (wrote && counted rel)) entry.1
            else (machine, .error (.traversal (destination target rel)))

/-- The loop over an archive that can be read, behind its shared prefix. -/
def extractWith (archive : Option Archive) (faults : ExtractFaults) (target : FilePath)
    (wanted counted : List Bytes → Bool) (machine : Machine) :
    Machine × Except ExtractError Bool :=
  match archive with
  | none => (machine, .error .io)
  | some archive =>
      match detectSharedPrefix archive with
      | none => (machine, .error .io)
      | some shared =>
          if faults.detect ∨ faults.reopen then (machine, .error .io)
          else
            extractEach cwd target shared wanted counted faults.entries archive.damaged 0
              archive.entries newBudget false machine

/-- `TarballStripped` -/
def tarballStripped (archive : Option Archive) (faults : ExtractFaults) (target : FilePath)
    (machine : Machine) : Machine × Except ExtractError Unit :=
  let extracted := extractWith cwd archive faults target (fun _ => true) (fun _ => true) machine
  (extracted.1, extracted.2.map fun _ => ())

/-- The `common` package beside a subdirectory. -/
def commonRoot (subdirRoot : List Bytes) : List Bytes :=
  subdirRoot.dropLast ++ [utf8 "common"]

/-- `SubdirSelective` -/
def subdirSelective (archive : Option Archive) (faults : ExtractFaults) (target : FilePath)
    (subdir : Bytes) (includeCommon : Bool) (machine : Machine) :
    Machine × Except ExtractError Unit :=
  let subdirRoot := components subdir
  let wanted := fun rel =>
    startsWith rel subdirRoot || (includeCommon && startsWith rel (commonRoot subdirRoot))
  let extracted :=
    extractWith cwd archive faults target wanted (fun rel => startsWith rel subdirRoot) machine
  (extracted.1,
    match extracted.2 with
    | .error error => .error error
    | .ok true => .ok ()
    | .ok false => .error (.noFiles subdir))

end Extraction

/-! ## Extraction stays inside its target -/

/-- What stays inside a directory.  The directories leading to it may be made. -/
def insideOf (root : FilePath) : Touch → Prop
  | .made path => root.Within path ∨ path.Within root
  | .wrote path => root.Within path
  | .removed path => root.Within path
  | .hashed path => root.Within path

/-- Exactly the destinations inside the target are accepted. -/
theorem validateDest_iff {target dest : FilePath} :
    validateDest target dest = true ↔ target.Within dest := by
  rw [Path.within_iff_rel, validateDest]
  cases target.rel dest <;> simp

/-- Between two machines, only what lies inside a directory was changed, and no
directory went away. -/
structure Inside (cwd : RelPath) (root : FilePath) (before after : Machine) : Prop where
  only : Only (insideOf root) before after
  keeps : ∀ other, Apart (locate cwd root) other → after.disk.get other = before.disk.get other
  directories : ∀ other, before.disk.HasDirectory other → after.disk.HasDirectory other

section Confinement

variable {cwd : RelPath} {root path : FilePath} {machine : Machine}

theorem Inside.refl (cwd : RelPath) (root : FilePath) (machine : Machine) :
    Inside cwd root machine machine where
  only := Only.refl _ _
  keeps _ _ := rfl
  directories _ there := there

theorem Inside.trans {first second third : Machine} (left : Inside cwd root first second)
    (right : Inside cwd root second third) : Inside cwd root first third where
  only := left.only.trans right.only
  keeps other apart := (right.keeps other apart).trans (left.keeps other apart)
  directories other there := right.directories other (left.directories other there)

/-- The directories above or inside a directory. -/
theorem Inside.mkdirAll {fails : FilePath → Bool}
    (near : root.Within path ∨ path.Within root) :
    Inside cwd root machine (machine.mkdirAll cwd fails path).1 where
  only := by
    apply Only.mkdirAll
    intro ancestor above
    rcases near with inside | leading
    · exact (above.total inside).symm
    · exact Or.inr (above.trans leading)
  keeps other apart := by
    apply find_mkdirEach
    intro ancestor mem below
    have above := below.trans (locate_mono (Path.within_of_mem_lineage mem))
    rcases near with inside | leading
    · have rootAbove : locate cwd root <+: locate cwd path := locate_mono inside
      rcases List.prefix_or_prefix_of_prefix above rootAbove with shorter | longer
      · exact apart.2 shorter
      · exact apart.1 longer
    · exact apart.2 (above.trans (locate_mono leading))
  directories _ there := hasDirectory_mkdirEach there

theorem Inside.writeFile {fault : Option WriteFault} {content : Bytes}
    (inside : root.Within path) :
    Inside cwd root machine (machine.writeFile cwd fault path content).1 where
  only := Only.writeFile inside
  keeps _ apart := find_writeFile (apart.below (locate_mono inside))
  directories _ there := hasDirectory_writeFile there

/-- The directory a file in the directory is put into.  A path without a name has
nothing to make above it. -/
theorem Inside.mkdirAll_dir {fails : FilePath → Bool} (inside : root.Within path) :
    Inside cwd root machine (machine.mkdirAll cwd fails (dir path)).1 := by
  cases names : path.names with
  | nil =>
      have noLineage : (dir path).lineage = [] := by
        simp [dir, names, Path.lineage]
      rw [Machine.mkdirAll, noLineage]
      exact Inside.refl _ _ _
  | cons name rest =>
      have named : dir path = path.dir := by rw [dir, names]
      rw [named]
      exact Inside.mkdirAll inside.dir.symm

theorem Inside.writeEntry {fault : EntryFault} {header : Header} {budget : Budget}
    (inside : root.Within path) :
    Inside cwd root machine (writeEntry cwd fault header path budget machine).1 := by
  unfold Installer.writeEntry
  split
  · exact Inside.refl _ _ _
  · split
    · exact Inside.mkdirAll (Or.inl inside)
    · split
      · have made : Inside cwd root machine (machine.mkdirAll cwd fault.mkdir (dir path)).1 :=
          Inside.mkdirAll_dir inside
        simp only
        split
        · exact made.trans (Inside.writeFile inside)
        · exact made
      · split <;> exact Inside.refl _ _ _

theorem Inside.extractEach {shared : Option Bytes} {wanted counted : List Bytes → Bool}
    {faults : Nat → EntryFault} {damaged : Bool} (index : Nat) (entries : List Header)
    (budget : Budget) (extracted : Bool) (machine : Machine) :
    Inside cwd root machine (extractEach cwd root shared wanted counted faults damaged index entries
      budget extracted machine).1 := by
  induction entries generalizing index budget extracted machine with
  | nil => exact Inside.refl _ _ _
  | cons header rest ih =>
      rw [Installer.extractEach]
      split
      · exact Inside.refl _ _ _
      · split
        · exact ih _ _ _ _
        · split
          · exact ih _ _ _ _
          · split
            · exact ih _ _ _ _
            · split
              · rename_i valid
                have written : ∀ rel, root.Within (destination root rel) →
                    Inside cwd root machine
                      (Installer.writeEntry cwd (faults index) header
                        (destination root rel) budget machine).1 :=
                  fun _ inside => Inside.writeEntry inside
                simp only
                split
                · exact written _ (validateDest_iff.mp valid)
                · exact (written _ (validateDest_iff.mp valid)).trans (ih _ _ _ _)
              · exact Inside.refl _ _ _

theorem Inside.extractWith {archive : Option Archive} {faults : ExtractFaults}
    {wanted counted : List Bytes → Bool} :
    Inside cwd root machine (extractWith cwd archive faults root wanted counted machine).1 := by
  unfold Installer.extractWith
  split
  · exact Inside.refl _ _ _
  · split
    · exact Inside.refl _ _ _
    · split
      · exact Inside.refl _ _ _
      · exact Inside.extractEach _ _ _ _ _

end Confinement

end ClotoCore.Installer
