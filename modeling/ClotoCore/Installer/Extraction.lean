import ClotoCore.Installer.Extract
import ClotoCore.Lookup.Overwrite
import Mathlib.Algebra.GroupWithZero.Nat

/-!
# What an extraction leaves behind

Two passes read an archive.  The first looks for a directory every member lies under,
the second writes what the rules select.  Whatever an archive holds, only regular files
and directories appear, strictly under the target; and where the extraction succeeds,
the target's files are what writing the selected members in order leaves.
-/

namespace ClotoCore.Installer

open ClotoCore.Encoding ClotoCore.Lexical ClotoCore.Lookup
open ClotoCore.Seal (Name RelPath Leaf separator)

/-! ## What the rules select -/

/-- The members that are extracted, each with the components it is extracted under. -/
def selected (shared : Option Bytes) (wanted : List Bytes → Bool) (entries : List Header) :
    List (Header × List Bytes) :=
  entries.filterMap fun header =>
    if isMetadata header then none
    else
      match stripPrefix shared (components header.name) with
      | none => none
      | some rel => if rel = [] ∨ wanted rel = false then none else some (header, rel)

/-- The regular files among extracted members, with where they go, in order. -/
def filesOf (target : FilePath) (members : List (Header × List Bytes)) : List (FilePath × Bytes) :=
  members.filterMap fun member =>
    if regularTypes.contains member.1.typeflag then
      some (destination target member.2, member.1.content)
    else none

/-- The bytes of files. -/
def totalBytes (files : List (FilePath × Bytes)) : Nat :=
  (files.map fun file => file.2.length).sum

/-- Files as what is written to the places of a disk. -/
def writesOf (cwd : RelPath) (files : List (FilePath × Bytes)) : List (RelPath × Option Leaf) :=
  files.map fun file => (locate cwd file.1, some (.file file.2))

theorem filesOf_append (target : FilePath) (front back : List (Header × List Bytes)) :
    filesOf target (front ++ back) = filesOf target front ++ filesOf target back :=
  List.filterMap_append

theorem filesOf_singleton (target : FilePath) (header : Header) (rel : List Bytes) :
    filesOf target [(header, rel)]
      = if regularTypes.contains header.typeflag then [(destination target rel, header.content)]
        else [] := by
  rw [filesOf, List.filterMap_cons]
  split <;> simp_all

theorem totalBytes_append (front back : List (FilePath × Bytes)) :
    totalBytes (front ++ back) = totalBytes front + totalBytes back := by
  rw [totalBytes, List.map_append, List.sum_append]
  rfl

theorem writesOf_append (cwd : RelPath) (front back : List (FilePath × Bytes)) :
    writesOf cwd (front ++ back) = writesOf cwd front ++ writesOf cwd back :=
  List.map_append

/-- What `SubdirSelective` selects. -/
def inSubdir (subdir : Bytes) (includeCommon : Bool) (rel : List Bytes) : Bool :=
  startsWith rel (components subdir)
    || (includeCommon && startsWith rel (commonRoot (components subdir)))

/-! ## What the calls do to leaves -/

section Calls

variable {cwd : RelPath} {machine : Machine} {path root : FilePath}

/-- Making directories changes no leaf. -/
theorem leafAt_mkdirEach {fails : FilePath → Bool} {paths : List FilePath} :
    (machine.mkdirEach cwd fails paths).1.disk.leafAt = machine.disk.leafAt := by
  induction paths generalizing machine with
  | nil => rfl
  | cons path rest ih =>
      rw [Machine.mkdirEach]
      split
      · exact ih
      · rfl
      · rename_i absent
        rw [Machine.find] at absent
        split
        · rfl
        · rename_i possible
          simp only [not_or, not_not] at possible
          have notThere : ¬machine.disk.HasDirectory (locate cwd path) := by
            simp [Disk.HasDirectory, absent]
          have bare : ∀ name rest, Object.emptyDirectory.node.at (name :: rest) = none :=
            fun _ _ => rfl
          have noLeaf : machine.disk.leafAt (locate cwd path) = none := by
            rw [Disk.leafAt, absent]
            rfl
          rw [ih, Machine.put, Disk.leafAt_set bare possible.2 notThere]
          exact Function.update_eq_self_iff.mpr noLeaf.symm

theorem leafAt_put_file {content : Bytes} {touch : Touch}
    (writable : ¬(machine.disk.HasDirectory (locate cwd path)
      ∨ ¬machine.disk.Places (locate cwd path))) :
    (machine.put cwd path (some (.file content)) touch).disk.leafAt
      = Function.update machine.disk.leafAt (locate cwd path) (some (.file content)) := by
  simp only [not_or, not_not] at writable
  exact Disk.leafAt_set (fun _ _ => rfl) writable.2 writable.1

/-- A file that could be written is there, and no other leaf changed. -/
theorem leafAt_writeFile {fault : Option WriteFault} {content : Bytes}
    (written : (machine.writeFile cwd fault path content).2 = true) :
    (machine.writeFile cwd fault path content).1.disk.leafAt
      = Function.update machine.disk.leafAt (locate cwd path) (some (.file content)) := by
  unfold Machine.writeFile at written ⊢
  split
  · rename_i refused
    rw [if_pos refused] at written
    cases written
  · rename_i writable
    rw [if_neg writable] at written
    cases fault with
    | none => exact leafAt_put_file writable
    | some fault => cases fault <;> cases written

/-- Between two disks, every leaf that is new is a regular file. -/
def LeavesFiles (before after : Machine) : Prop :=
  ∀ place, after.disk.leafAt place = before.disk.leafAt place ∨
    ∃ content, after.disk.leafAt place = some (.file content)

theorem LeavesFiles.refl (machine : Machine) : LeavesFiles machine machine :=
  fun _ => Or.inl rfl

theorem LeavesFiles.trans {first second third : Machine} (left : LeavesFiles first second)
    (right : LeavesFiles second third) : LeavesFiles first third := by
  intro place
  rcases right place with same | file
  · rw [same]
    exact left place
  · exact Or.inr file

theorem LeavesFiles.of_update {before after : Machine} {place : RelPath} {content : Bytes}
    (updated : after.disk.leafAt
      = Function.update before.disk.leafAt place (some (.file content))) :
    LeavesFiles before after := by
  intro other
  rw [updated]
  by_cases same : other = place
  · rw [same, Function.update_self]
    exact Or.inr ⟨content, rfl⟩
  · rw [Function.update_of_ne same]
    exact Or.inl rfl

theorem LeavesFiles.mkdirAll {fails : FilePath → Bool} :
    LeavesFiles machine (machine.mkdirAll cwd fails path).1 := fun place =>
  Or.inl (congrFun leafAt_mkdirEach place)

theorem LeavesFiles.writeFile {fault : Option WriteFault} {content : Bytes} :
    LeavesFiles machine (machine.writeFile cwd fault path content).1 := by
  unfold Machine.writeFile
  split
  · exact LeavesFiles.refl _
  · rename_i writable
    split
    · exact LeavesFiles.of_update (leafAt_put_file writable)
    · exact LeavesFiles.refl _
    · exact LeavesFiles.of_update (leafAt_put_file writable)

/-! ## What the calls make in an existing directory -/

/-- What an extraction may do: make directories and files strictly under its target. -/
def strictlyInside (root : FilePath) : Touch → Prop
  | .made path => root.StrictlyWithin path
  | .wrote path => root.StrictlyWithin path
  | .removed _ => False
  | .hashed _ => False

/-- Only directories that are not there are made. -/
theorem Only.mkdirEach_absent {allowed : Touch → Prop} {fails : FilePath → Bool}
    {paths : List FilePath}
    (fine : ∀ path ∈ paths, ¬machine.disk.HasDirectory (locate cwd path) → allowed (.made path)) :
    Only allowed machine (machine.mkdirEach cwd fails paths).1 := by
  induction paths generalizing machine with
  | nil => exact Only.refl _ _
  | cons path rest ih =>
      have restFine : ∀ path ∈ rest, ¬machine.disk.HasDirectory (locate cwd path) →
          allowed (.made path) := fun path mem => fine path (List.mem_cons_of_mem _ mem)
      rw [Machine.mkdirEach]
      split
      · exact ih restFine
      · exact Only.refl _ _
      · rename_i absent
        rw [Machine.find] at absent
        have notThere : ¬machine.disk.HasDirectory (locate cwd path) := by
          simp [Disk.HasDirectory, absent]
        split
        · exact Only.refl _ _
        · refine (Only.put (fine path List.mem_cons_self notThere)).trans (ih ?_)
          intro each mem stillAbsent
          exact restFine each mem fun there => stillAbsent (there.set _ notThere)

/-- Below a directory that is there, only what lies strictly under it is made. -/
theorem strictly_of_lineage {ancestor : FilePath}
    (there : machine.disk.HasDirectory (locate cwd root))
    (inside : root.Within path) (above : ancestor.Within path)
    (absent : ¬machine.disk.HasDirectory (locate cwd ancestor)) : root.StrictlyWithin ancestor := by
  rcases above.total inside with leading | under
  · exact absurd (there.of_prefix (locate_mono leading)) absent
  · refine ⟨under, ?_⟩
    rintro rfl
    exact absent there

theorem within_of_mem_lineage_dir {ancestor : FilePath} (mem : ancestor ∈ (dir path).lineage) :
    ancestor.Within path := by
  cases names : path.names with
  | nil => simp [dir, names, Path.lineage] at mem
  | cons name rest =>
      have named : dir path = path.dir := by rw [dir, names]
      rw [named] at mem
      exact (Path.within_of_mem_lineage mem).trans path.dir_within

theorem Only.writeFile_strictly {fault : Option WriteFault} {content : Bytes}
    (there : machine.disk.HasDirectory (locate cwd root)) (inside : root.Within path) :
    Only (strictlyInside root) machine (machine.writeFile cwd fault path content).1 := by
  by_cases same : path = root
  · have refused : (machine.writeFile cwd fault path content).1 = machine := by
      unfold Machine.writeFile
      rw [same, if_pos (Or.inl there)]
    rw [refused]
    exact Only.refl _ _
  · exact Only.writeFile (show root.StrictlyWithin path from ⟨inside, same⟩)

end Calls

/-! ## Every run stays in its target -/

/-- Between two machines, things were made strictly under a directory only, and no
new leaf is anything but a regular file. -/
structure Contained (cwd : RelPath) (root : FilePath) (before after : Machine) : Prop
    extends Inside cwd root before after where
  strictly : Only (strictlyInside root) before after
  leaves : LeavesFiles before after

section Runs

variable {cwd : RelPath} {machine : Machine} {path root : FilePath}

theorem Contained.refl (cwd : RelPath) (root : FilePath) (machine : Machine) :
    Contained cwd root machine machine where
  toInside := Inside.refl _ _ _
  strictly := Only.refl _ _
  leaves := LeavesFiles.refl _

theorem Contained.trans {first second third : Machine} (left : Contained cwd root first second)
    (right : Contained cwd root second third) : Contained cwd root first third where
  toInside := left.toInside.trans right.toInside
  strictly := left.strictly.trans right.strictly
  leaves := left.leaves.trans right.leaves

theorem Contained.mkdirAll {fails : FilePath → Bool}
    (there : machine.disk.HasDirectory (locate cwd root)) (inside : root.Within path) :
    Contained cwd root machine (machine.mkdirAll cwd fails path).1 where
  toInside := Inside.mkdirAll (Or.inl inside)
  strictly := Only.mkdirEach_absent fun _ mem absent =>
    strictly_of_lineage there inside (Path.within_of_mem_lineage mem) absent
  leaves := LeavesFiles.mkdirAll

theorem Contained.mkdirAll_dir {fails : FilePath → Bool}
    (there : machine.disk.HasDirectory (locate cwd root)) (inside : root.Within path) :
    Contained cwd root machine (machine.mkdirAll cwd fails (dir path)).1 where
  toInside := Inside.mkdirAll_dir inside
  strictly := Only.mkdirEach_absent fun _ mem absent =>
    strictly_of_lineage there inside (within_of_mem_lineage_dir mem) absent
  leaves := LeavesFiles.mkdirAll

theorem Contained.writeFile {fault : Option WriteFault} {content : Bytes}
    (there : machine.disk.HasDirectory (locate cwd root)) (inside : root.Within path) :
    Contained cwd root machine (machine.writeFile cwd fault path content).1 where
  toInside := Inside.writeFile inside
  strictly := Only.writeFile_strictly there inside
  leaves := LeavesFiles.writeFile

theorem Contained.writeEntry {fault : EntryFault} {header : Header} {budget : Budget}
    (there : machine.disk.HasDirectory (locate cwd root)) (inside : root.Within path) :
    Contained cwd root machine (writeEntry cwd fault header path budget machine).1 := by
  unfold Installer.writeEntry
  split
  · exact Contained.refl _ _ _
  · split
    · exact Contained.mkdirAll there inside
    · split
      · have made : Contained cwd root machine (machine.mkdirAll cwd fault.mkdir (dir path)).1 :=
          Contained.mkdirAll_dir there inside
        simp only
        split
        · exact made.trans (Contained.writeFile (made.directories _ there) inside)
        · exact made
      · split <;> exact Contained.refl _ _ _

theorem Contained.extractEach {shared : Option Bytes} {wanted counted : List Bytes → Bool}
    {faults : Nat → EntryFault} {damaged : Bool} (index : Nat) (entries : List Header)
    (budget : Budget) (extracted : Bool) (machine : Machine)
    (there : machine.disk.HasDirectory (locate cwd root)) :
    Contained cwd root machine (extractEach cwd root shared wanted counted faults damaged index
      entries budget extracted machine).1 := by
  induction entries generalizing index budget extracted machine with
  | nil => exact Contained.refl _ _ _
  | cons header rest ih =>
      rw [Installer.extractEach]
      split
      · exact Contained.refl _ _ _
      · split
        · exact ih _ _ _ _ there
        · split
          · exact ih _ _ _ _ there
          · rename_i rel _
            split
            · exact ih _ _ _ _ there
            · split
              · rename_i valid
                have written : Contained cwd root machine (Installer.writeEntry cwd (faults index)
                    header (destination root rel) budget machine).1 :=
                  Contained.writeEntry there (validateDest_iff.mp valid)
                simp only
                split
                · exact written
                · exact written.trans (ih _ _ _ _ (written.directories _ there))
              · exact Contained.refl _ _ _

theorem Contained.extractWith {archive : Option Archive} {faults : ExtractFaults}
    {wanted counted : List Bytes → Bool} (there : machine.disk.HasDirectory (locate cwd root)) :
    Contained cwd root machine (extractWith cwd archive faults root wanted counted machine).1 := by
  unfold Installer.extractWith
  split
  · exact Contained.refl _ _ _
  · split
    · exact Contained.refl _ _ _
    · split
      · exact Contained.refl _ _ _
      · exact Contained.extractEach _ _ _ _ _ there

end Runs

/-! ## What a successful run writes -/

/-- Members were extracted: what they were charged is off the budget, and every leaf
is what writing them in order leaves. -/
structure Extracts (cwd : RelPath) (root : FilePath) (members : List (Header × List Bytes))
    (budget left : Budget) (before after : Machine) : Prop where
  entries : members.length + left.remainingEntries = budget.remainingEntries
  bytes : totalBytes (filesOf root members) + left.remainingBytes = budget.remainingBytes
  leaves : after.disk.leafAt = overwrite before.disk.leafAt (writesOf cwd (filesOf root members))

section Success

variable {cwd : RelPath} {machine : Machine} {root : FilePath}

theorem Extracts.nil (cwd : RelPath) (root : FilePath) (budget : Budget) (machine : Machine) :
    Extracts cwd root [] budget budget machine machine where
  entries := Nat.zero_add _
  bytes := Nat.zero_add _
  leaves := rfl

theorem Extracts.append {front back : List (Header × List Bytes)} {budget middle left : Budget}
    {first second third : Machine} (before : Extracts cwd root front budget middle first second)
    (after : Extracts cwd root back middle left second third) :
    Extracts cwd root (front ++ back) budget left first third where
  entries := by
    have frontEntries := before.entries
    have backEntries := after.entries
    rw [List.length_append]
    omega
  bytes := by
    have frontBytes := before.bytes
    have backBytes := after.bytes
    rw [filesOf_append, totalBytes_append]
    omega
  leaves := by
    rw [after.leaves, before.leaves, filesOf_append, writesOf_append, overwrite_append]

variable {header : Header} {rel : List Bytes} {budget : Budget} {before after : Machine}

/-- A member that is no regular file is charged, and leaves every leaf as it was. -/
theorem Extracts.of_irregular (irregular : ¬regularTypes.contains header.typeflag = true)
    (charged : ¬budget.remainingEntries = 0) (same : after.disk.leafAt = before.disk.leafAt) :
    Extracts cwd root [(header, rel)] budget
      { budget with remainingEntries := budget.remainingEntries - 1 } before after where
  entries := by
    simp only [List.length_singleton]
    omega
  bytes := by
    rw [filesOf_singleton, if_neg irregular]
    exact Nat.zero_add _
  leaves := by
    rw [filesOf_singleton, if_neg irregular]
    exact same

/-- A regular file is charged with its content, which its place then holds. -/
theorem Extracts.of_regular (regular : regularTypes.contains header.typeflag = true)
    (charged : ¬budget.remainingEntries = 0) (fits : ¬budget.remainingBytes < header.content.length)
    (updated : after.disk.leafAt = Function.update before.disk.leafAt
      (locate cwd (destination root rel)) (some (.file header.content))) :
    Extracts cwd root [(header, rel)] budget
      { remainingEntries := budget.remainingEntries - 1
        remainingBytes := budget.remainingBytes - header.content.length } before after where
  entries := by
    simp only [List.length_singleton]
    omega
  bytes := by
    rw [filesOf_singleton, if_pos regular]
    simp only [totalBytes, List.map_singleton, List.sum_singleton]
    omega
  leaves := by
    rw [filesOf_singleton, if_pos regular]
    exact updated

/-- An entry that could be written was extracted under its name. -/
theorem Extracts.writeEntry {fault : EntryFault} {left : Budget} {wrote : Bool}
    (ended : (writeEntry cwd fault header (destination root rel) budget machine).2
      = .ok (left, wrote)) :
    Extracts cwd root [(header, rel)] budget left machine
      (writeEntry cwd fault header (destination root rel) budget machine).1 := by
  unfold Installer.writeEntry at ended ⊢
  by_cases spent : budget.remainingEntries = 0
  · simp [spent] at ended
  · rw [if_neg spent] at ended ⊢
    by_cases isDir : header.typeflag = typeDir
    · have irregular : ¬regularTypes.contains header.typeflag = true := by
        rw [isDir]
        decide
      simp only [isDir, if_true] at ended ⊢
      split at ended
      · cases ended
        exact Extracts.of_irregular irregular spent leafAt_mkdirEach
      · cases ended
    · by_cases regular : regularTypes.contains header.typeflag = true
      · simp only [isDir, regular, if_false, if_true] at ended ⊢
        cases made : (machine.mkdirAll cwd fault.mkdir (dir (destination root rel))).2 with
        | false => simp [made] at ended
        | true =>
            simp only [made, if_true] at ended ⊢
            split at ended
            · cases ended
            · rename_i fine
              split at ended
              · cases ended
              · rename_i fits
                cases ended
                simp only [not_or, Bool.not_eq_false] at fine
                have whole : header.content.take (budget.remainingBytes + 1) = header.content :=
                  List.take_of_length_le (by omega)
                rw [whole] at fine ⊢
                apply Extracts.of_regular regular spent fits
                rw [leafAt_writeFile fine.1, Machine.mkdirAll, leafAt_mkdirEach]
      · simp only [if_neg isDir, if_neg regular] at ended ⊢
        split at ended
        · cases ended
        · rename_i skipped
          rw [if_neg skipped]
          cases ended
          exact Extracts.of_irregular regular spent rfl

theorem selected_cons {shared : Option Bytes} {wanted : List Bytes → Bool} {rest : List Header} :
    selected shared wanted (header :: rest)
      = selected shared wanted [header] ++ selected shared wanted rest := by
  rw [← List.singleton_append, selected, List.filterMap_append]
  rfl

/-- A member that is not selected is passed over. -/
theorem Extracts.cons {shared : Option Bytes} {wanted : List Bytes → Bool} {rest : List Header}
    {middle left : Budget} {second : Machine}
    (one : Extracts cwd root (selected shared wanted [header]) budget middle before second)
    (others : Extracts cwd root (selected shared wanted rest) middle left second after) :
    Extracts cwd root (selected shared wanted (header :: rest)) budget left before after := by
  rw [selected_cons]
  exact one.append others

theorem Extracts.extractEach {shared : Option Bytes} {wanted counted : List Bytes → Bool}
    {faults : Nat → EntryFault} {damaged : Bool} (index : Nat) (entries : List Header)
    (budget : Budget) (extracted : Bool) (machine : Machine) {counts : Bool}
    (ended : (extractEach cwd root shared wanted counted faults damaged index entries budget
      extracted machine).2 = .ok counts) :
    ∃ left, Extracts cwd root (selected shared wanted entries) budget left machine
      (extractEach cwd root shared wanted counted faults damaged index entries budget extracted
        machine).1 := by
  induction entries generalizing index budget extracted machine with
  | nil => exact ⟨budget, Extracts.nil _ _ _ _⟩
  | cons header rest ih =>
      have passed (unselected : selected shared wanted [header] = []) :
          Extracts cwd root (selected shared wanted [header]) budget budget machine machine := by
        rw [unselected]
        exact Extracts.nil _ _ _ _
      rw [Installer.extractEach] at ended ⊢
      by_cases unread : (faults index).next = true
      · simp [unread] at ended
      · simp only [unread] at ended ⊢
        by_cases metadata : isMetadata header = true
        · simp only [metadata, if_true] at ended ⊢
          rcases ih _ _ _ _ ended with ⟨left, others⟩
          exact ⟨left, (passed (by simp [selected, metadata])).cons others⟩
        · simp only [metadata] at ended ⊢
          cases stripped : stripPrefix shared (components header.name) with
          | none =>
              simp only [stripped] at ended ⊢
              rcases ih _ _ _ _ ended with ⟨left, others⟩
              exact ⟨left, (passed (by simp [selected, metadata, stripped])).cons others⟩
          | some rel =>
              simp only [stripped] at ended ⊢
              by_cases unwanted : rel = [] ∨ wanted rel = false
              · simp only [unwanted, if_true] at ended ⊢
                rcases ih _ _ _ _ ended with ⟨left, others⟩
                exact ⟨left, (passed
                  (by simp [selected, metadata, stripped, unwanted])).cons others⟩
              · rw [if_neg unwanted] at ended ⊢
                have isSelected : selected shared wanted [header] = [(header, rel)] := by
                  simp [selected, metadata, stripped, unwanted]
                by_cases valid : validateDest root (destination root rel) = true
                · simp only [valid, if_true] at ended ⊢
                  cases written : (Installer.writeEntry cwd (faults index) header
                      (destination root rel) budget machine).2 with
                  | error error => simp [written] at ended
                  | ok outcome =>
                      rcases outcome with ⟨middle, wrote⟩
                      simp only [written] at ended ⊢
                      rcases ih _ _ _ _ ended with ⟨left, others⟩
                      refine ⟨left, Extracts.cons ?_ others⟩
                      rw [isSelected]
                      exact Extracts.writeEntry written
                · simp [valid] at ended

end Success

/-! ## The first pass -/

/-- The prefix that was found leads every member that has a name, and one that has
nothing behind it is the directory itself. -/
theorem detectFrom_leads {damaged nested : Bool} {entries : List Header} {shared : Option Bytes}
    {first : Bytes} (found : detectFrom damaged entries shared nested = some (some first)) :
    (∀ known, shared = some known → known = first) ∧
      ∀ header ∈ entries, isMetadata header = false → components header.name ≠ [] →
        ∃ more, components header.name = first :: more ∧
          (more = [] → header.typeflag = typeDir) := by
  induction entries generalizing shared nested with
  | nil =>
      rw [detectFrom] at found
      split at found
      · cases found
      · split at found
        · simp only [Option.some.injEq] at found
          simp [found]
        · cases found
  | cons header rest ih =>
      rw [detectFrom] at found
      split at found
      · rename_i metadata
        refine ⟨(ih found).1, ?_⟩
        intro member mem ordinary named
        rcases List.mem_cons.mp mem with rfl | later
        · rw [metadata] at ordinary
          cases ordinary
        · exact (ih found).2 member later ordinary named
      · split at found
        · rename_i nameless
          refine ⟨(ih found).1, ?_⟩
          intro member mem ordinary named
          rcases List.mem_cons.mp mem with rfl | later
          · exact absurd nameless named
          · exact (ih found).2 member later ordinary named
        · rename_i top more parts
          split at found
          · cases found
          · rename_i nestedOrDir
            rw [not_and_not_right] at nestedOrDir
            -- the member's first component is the prefix the rest is read with
            have carried : ∀ nested, detectFrom damaged rest (some top) nested = some (some first) →
                ∀ member ∈ header :: rest, isMetadata member = false →
                  components member.name ≠ [] →
                    ∃ more, components member.name = first :: more ∧
                      (more = [] → member.typeflag = typeDir) := by
              intro nested read member mem ordinary named
              rcases List.mem_cons.mp mem with rfl | later
              · rw [← (ih read).1 top rfl]
                exact ⟨more, parts, nestedOrDir⟩
              · exact (ih read).2 member later ordinary named
            cases shared with
            | none => exact ⟨by simp, carried _ found⟩
            | some known =>
                simp only at found
                split at found
                · rename_i same
                  subst same
                  exact ⟨fun _ given => (ih found).1 _ given, carried _ found⟩
                · cases found

/-- A prefix leads every member with a name, and no file with a name is passed over for it. -/
def Leads (shared : Option Bytes) (archive : Archive) : Prop :=
  ∀ header ∈ archive.entries, isMetadata header = false → components header.name ≠ [] →
    (∀ first, shared = some first → startsWith (components header.name) [first] = true) ∧
      (header.typeflag ≠ typeDir →
        ∃ rel, rel ≠ [] ∧ stripPrefix shared (components header.name) = some rel)

theorem detectSharedPrefix_leads {archive : Archive} {shared : Option Bytes}
    (found : detectSharedPrefix archive = some shared) : Leads shared archive := by
  intro header mem ordinary named
  cases shared with
  | none => exact ⟨by simp, fun _ => ⟨components header.name, named, rfl⟩⟩
  | some first =>
      rcases (detectFrom_leads found).2 header mem ordinary named with ⟨more, parts, lone⟩
      have leads : startsWith (components header.name) [first] = true := by
        simp [startsWith, parts]
      refine ⟨?_, ?_⟩
      · rintro _ ⟨⟩
        exact leads
      · intro notDir
        refine ⟨more, fun alone => notDir (lone alone), ?_⟩
        rw [stripPrefix, if_pos leads, parts]
        rfl

/-! ## The policy -/

/-- No symbolic link is at or under a path. -/
def LinkFree (cwd : RelPath) (target : FilePath) (machine : Machine) : Prop :=
  ∀ names link, machine.disk.leafAt (locate cwd target ++ names) ≠ some (.symlink link)

/-- The target holds what the selected members put there: the last one at a place is
what the place holds, and other places hold what they held. -/
structure Unpacked (cwd : RelPath) (target : FilePath) (members : List (Header × List Bytes))
    (before after : Machine) : Prop where
  entries : members.length ≤ maxExtractedEntries
  bytes : totalBytes (filesOf target members) ≤ maxExtractedBytes
  last : ∀ front path content back, filesOf target members = front ++ (path, content) :: back →
    locate cwd path ∉ back.map (fun file => locate cwd file.1) →
      after.disk.leafAt (locate cwd path) = some (.file content)
  others : ∀ place, place ∉ (filesOf target members).map (fun file => locate cwd file.1) →
    after.disk.leafAt place = before.disk.leafAt place

/-- What the extraction policy promises of a run over an archive. -/
structure Governed (cwd : RelPath) (target : FilePath) (wanted : List Bytes → Bool)
    (archive : Archive) (before after : Machine) (succeeded : Prop) : Prop where
  strictly : Only (strictlyInside target) before after
  outside : ∀ place, Apart (locate cwd target) place →
    after.disk.get place = before.disk.get place
  leaves : LeavesFiles before after
  linkFree : LinkFree cwd target after
  unpacked : succeeded → ∃ shared, detectSharedPrefix archive = some shared ∧
    Unpacked cwd target (selected shared wanted archive.entries) before after

section Policy

variable {cwd : RelPath} {machine : Machine} {target : FilePath}

theorem LinkFree.of_leavesFiles {before after : Machine} (linkFree : LinkFree cwd target before)
    (leaves : LeavesFiles before after) : LinkFree cwd target after := by
  intro names link isLink
  rcases leaves (locate cwd target ++ names) with same | ⟨content, file⟩
  · rw [same] at isLink
    exact linkFree names link isLink
  · rw [file] at isLink
    cases isLink

theorem Extracts.unpacked {members : List (Header × List Bytes)} {left : Budget}
    {before after : Machine} (extracts : Extracts cwd target members newBudget left before after) :
    Unpacked cwd target members before after where
  entries := Nat.le_of_add_right_le (Nat.le_of_eq extracts.entries)
  bytes := Nat.le_of_add_right_le (Nat.le_of_eq extracts.bytes)
  last := by
    intro front path content back filesEq latest
    rw [extracts.leaves, filesEq, writesOf, List.map_append, List.map_cons]
    apply overwrite_of_last
    rw [List.map_map]
    exact latest
  others := by
    intro place untouched
    rw [extracts.leaves]
    apply overwrite_of_not_mem
    rw [writesOf, List.map_map]
    exact untouched

/-- The loop over an archive keeps to the policy. -/
theorem extractWith_governed (there : machine.disk.HasDirectory (locate cwd target))
    (linkFree : LinkFree cwd target machine) (archive : Archive) (faults : ExtractFaults)
    (wanted counted : List Bytes → Bool) :
    Governed cwd target wanted archive machine
      (extractWith cwd (some archive) faults target wanted counted machine).1
      (∃ counts,
        (extractWith cwd (some archive) faults target wanted counted machine).2 = .ok counts) := by
  have contained : Contained cwd target machine
      (extractWith cwd (some archive) faults target wanted counted machine).1 :=
    Contained.extractWith there
  refine ⟨contained.strictly, contained.keeps, contained.leaves,
    linkFree.of_leavesFiles contained.leaves, ?_⟩
  rintro ⟨counts, ended⟩
  simp only [extractWith] at ended ⊢
  cases found : detectSharedPrefix archive with
  | none => simp [found] at ended
  | some shared =>
      refine ⟨shared, rfl, ?_⟩
      simp only [found] at ended ⊢
      split at ended
      · cases ended
      · rename_i readable
        rw [if_neg readable]
        rcases Extracts.extractEach _ _ _ _ _ ended with ⟨left, extracts⟩
        exact extracts.unpacked

theorem Governed.mono {wanted : List Bytes → Bool} {archive : Archive} {after : Machine}
    {succeeded earlier : Prop} (governed : Governed cwd target wanted archive machine after earlier)
    (implies : succeeded → earlier) :
    Governed cwd target wanted archive machine after succeeded :=
  { governed with unpacked := fun success => governed.unpacked (implies success) }

/-- Extraction into an existing directory without links keeps to the policy, and passes
over no file with a name on account of the shared prefix. -/
theorem extraction_governed (there : machine.disk.HasDirectory (locate cwd target))
    (linkFree : LinkFree cwd target machine) (archive : Archive) (faults : ExtractFaults) :
    Governed cwd target (fun _ => true) archive machine
        (tarballStripped cwd (some archive) faults target machine).1
        ((tarballStripped cwd (some archive) faults target machine).2 = .ok ()) ∧
      (∀ subdir includeCommon,
        Governed cwd target (inSubdir subdir includeCommon) archive machine
          (subdirSelective cwd (some archive) faults target subdir includeCommon machine).1
          ((subdirSelective cwd (some archive) faults target subdir includeCommon machine).2
            = .ok ())) ∧
      ∀ shared, detectSharedPrefix archive = some shared → Leads shared archive := by
  refine ⟨?_, ?_, fun shared found => detectSharedPrefix_leads found⟩
  · apply (extractWith_governed there linkFree archive faults _ _).mono
    intro success
    rw [tarballStripped] at success
    simp only at success
    cases ended : (extractWith cwd (some archive) faults target (fun _ => true) (fun _ => true)
        machine).2 with
    | error error => simp [ended, Except.map] at success
    | ok counts => exact ⟨counts, rfl⟩
  · intro subdir includeCommon
    apply (extractWith_governed there linkFree archive faults _ _).mono
    intro success
    rw [subdirSelective] at success
    simp only at success
    split at success
    · cases success
    · rename_i ended
      exact ⟨true, ended⟩
    · cases success

end Policy

/-! ## A run -/

/-- A machine with an empty directory `/t`. -/
def emptyTarget : Machine where
  disk := { entries := [(utf8 "t", .directory [])], wellFormed := ⟨by decide, by decide, trivial, trivial⟩ }
  touched := []

/-- Nothing goes wrong. -/
def noExtractFaults : ExtractFaults where
  detect := false
  reopen := false
  entries _ := EntryFault.none

/-- A directory, the same file under it twice, and a file without a name. -/
def namelessArchive : Archive where
  entries :=
    [ { name := utf8 "p/", typeflag := typeDir, content := [] }
    , { name := utf8 "p/a", typeflag := 0x30, content := utf8 "x" }
    , { name := utf8 "./", typeflag := 0x67, content := [] }
    , { name := [], typeflag := 0x30, content := utf8 "y" }
    , { name := utf8 "p/b/../a", typeflag := 0x30, content := utf8 "z" } ]
  damaged := false

theorem emptyTarget_linkFree : LinkFree [] (clean (utf8 "/t")) emptyTarget := by
  intro names link
  have located : locate [] (clean (utf8 "/t")) = [utf8 "t"] := by decide +kernel
  rw [located]
  have found : emptyTarget.disk.get [utf8 "t"] = some (.directory []) := by rfl
  rw [Disk.leafAt, Disk.get_append, found]
  cases names <;> simp [Seal.Node.at, leafOf]

/-- An archive without harm is extracted, and the later of two files stays. -/
theorem nameless_governed :
    (tarballStripped [] (some namelessArchive) noExtractFaults (clean (utf8 "/t")) emptyTarget).2
        = .ok () ∧
      Governed [] (clean (utf8 "/t")) (fun _ => true) namelessArchive emptyTarget
        (tarballStripped [] (some namelessArchive) noExtractFaults (clean (utf8 "/t"))
          emptyTarget).1
        ((tarballStripped [] (some namelessArchive) noExtractFaults (clean (utf8 "/t"))
          emptyTarget).2 = .ok ()) :=
  ⟨by rfl, (extraction_governed (by decide +kernel) emptyTarget_linkFree namelessArchive
    noExtractFaults).1⟩

/-- A file without a name does not lie under the prefix that was found, and both passes
leave it out without a word. -/
theorem nameless_left_out :
    detectSharedPrefix namelessArchive = some (some (utf8 "p")) ∧
      (∃ header ∈ namelessArchive.entries, isMetadata header = false ∧
        regularTypes.contains header.typeflag = true ∧
        startsWith (components header.name) [utf8 "p"] = false ∧
        stripPrefix (some (utf8 "p")) (components header.name) = none) ∧
      (tarballStripped [] (some namelessArchive) noExtractFaults (clean (utf8 "/t"))
        emptyTarget).2.isOk = true ∧
      (tarballStripped [] (some namelessArchive) noExtractFaults (clean (utf8 "/t"))
        emptyTarget).1.touched.length = 2 := by
  refine ⟨by decide +kernel, ?_, by decide +kernel, by decide +kernel⟩
  exact ⟨{ name := [], typeflag := 0x30, content := utf8 "y" }, by simp [namelessArchive],
    by decide +kernel⟩

end ClotoCore.Installer
