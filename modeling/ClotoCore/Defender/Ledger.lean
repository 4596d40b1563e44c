import ClotoCore.Defender.Receipt
import ClotoCore.Sequence.Numbered
import ClotoCore.Transition.Run

/-!
# Writers of the install receipt

The receipt is read, changed and written again by whoever has something to record,
and nothing keeps two of them apart.  A writer fills a temporary file, whose name is
the same for all, and renames it; a file that is open under that name goes on being
written wherever it has been renamed to.
-/

namespace ClotoCore.Defender.Ledger

open ClotoCore.Sequence ClotoCore.Transition

/-- What is in a file: the text of a receipt, or so many bytes that are none. -/
inductive Content where
  | torn (length : Nat)
  | text (receipt : Receipt)
  deriving DecidableEq

/-- How `load` reads the text of a file. -/
def Content.read : Content → Option Receipt
  | .torn _ => none
  | .text receipt => some receipt

/-- Write a text from the start of a file, whose end stays where it is longer. -/
def Content.overwrite (size : Receipt → Nat) (content : Content) (receipt : Receipt) : Content :=
  let length := match content with
    | .torn length => length
    | .text other => size other
  if length ≤ size receipt then .text receipt else .torn length

/-- A call of `record` or of `remove`. -/
inductive Edit where
  | record (entries : List ReceiptEntry)
  | remove (id : String)

/-- The receipt that a call writes over what it has loaded, if it writes one. -/
def Edit.receipt (edit : Edit) (dataDir : PathBuf) (stamp : Stamp) (loaded : Option Receipt) :
    Option Receipt :=
  match edit with
  | .record entries => some (Receipt.record dataDir stamp loaded entries)
  | .remove id => Receipt.remove stamp loaded id

/-- What the receipt owes once a call has finished: what was recorded last and not
removed later. -/
def Edit.owe (edit : Edit) (owed : List ReceiptEntry) : List ReceiptEntry :=
  match edit with
  | .record entries => entries.foldl upsert owed
  | .remove id => owed.filter fun entry => entry.id != id

/-- A call changes the entry of an id. -/
def Edit.touches (edit : Edit) (id : String) : Bool :=
  match edit with
  | .record entries => entries.any fun entry => entry.id == id
  | .remove removed => removed == id

/-- Where a call stands: before it loads the receipt; in `write_receipt` before its
temporary file is created, filled or renamed, or, if the rename fails, removed; at its end. -/
inductive Stage where
  | loading
  | creating (loaded : Option Receipt) (receipt : Receipt)
  | writing (loaded : Option Receipt) (receipt : Receipt) (node : Nat)
  | placing (loaded : Option Receipt) (receipt : Receipt)
  | cleaning
  | ended

/-- A call has come to its end. -/
def Stage.hasEnded : Stage → Bool
  | .ended => true
  | _ => false

/-- An edit of the receipt on its way. -/
structure Call where
  edit : Edit
  stage : Stage

/-- The files by their nodes, the nodes that the receipt and the temporary file have, and
the calls.  No step reads what the receipt owes to the calls that have finished. -/
structure State where
  dataDir : PathBuf
  nodes : List Content
  receipt : Option Nat
  temp : Option Nat
  calls : List Call
  owed : List ReceiptEntry

/-- The steps that the calls take. -/
inductive Label where
  | begin (edit : Edit)
  | load (call : Nat) (stamp : Stamp)
  | create (call : Nat)
  | write (call : Nat)
  | rename (call : Nat)
  | clean (call : Nat)

namespace State

/-- A machine without a receipt. -/
def init (dataDir : PathBuf) : State where
  dataDir := dataDir
  nodes := []
  receipt := none
  temp := none
  calls := []
  owed := []

/-- `load` -/
def load (state : State) : Option Receipt :=
  (state.receipt.bind fun node => state.nodes[node]?).bind Content.read

/-- The call is in a new stage. -/
def setStage (state : State) (n : Nat) (edit : Edit) (stage : Stage) : State :=
  { state with calls := state.calls.set n ⟨edit, stage⟩ }

/-- A call comes to its end. -/
def finish (state : State) (n : Nat) (edit : Edit) : State :=
  { state.setStage n edit .ended with owed := edit.owe state.owed }

/-- Open the temporary file, and truncate it where there is one. -/
def create (state : State) : State × Nat :=
  match state.temp with
  | some node => ({ state with nodes := state.nodes.set node (.torn 0) }, node)
  | none =>
      ({ state with
          nodes := state.nodes ++ [.torn 0]
          temp := some state.nodes.length }, state.nodes.length)

end State

variable (size : Receipt → Nat)

/-- One step, where `size` is the length of the text of a receipt. -/
def step : Action State Label
  | state, .begin edit => some { state with calls := state.calls ++ [⟨edit, .loading⟩] }
  | state, .load n stamp =>
      match state.calls[n]? with
      | some ⟨edit, .loading⟩ =>
          match edit.receipt state.dataDir stamp state.load with
          | some receipt => some (state.setStage n edit (.creating state.load receipt))
          | none => some (state.finish n edit)
      | _ => none
  | state, .create n =>
      match state.calls[n]? with
      | some ⟨edit, .creating loaded receipt⟩ =>
          some (state.create.1.setStage n edit (.writing loaded receipt state.create.2))
      | _ => none
  | state, .write n =>
      match state.calls[n]? with
      | some ⟨edit, .writing loaded receipt node⟩ =>
          some
            ({ state with
                nodes := state.nodes.modify node fun content => content.overwrite size receipt }.setStage
              n edit (.placing loaded receipt))
      | _ => none
  | state, .rename n =>
      match state.calls[n]? with
      | some ⟨edit, .placing _ _⟩ =>
          match state.temp with
          | some node => some ({ state with receipt := some node, temp := none }.finish n edit)
          | none => some (state.setStage n edit .cleaning)
      | _ => none
  | state, .clean n =>
      match state.calls[n]? with
      | some ⟨edit, .cleaning⟩ => some ({ state with temp := none }.finish n edit)
      | _ => none

/-- The receipt has what it owes. -/
def Kept (state : State) : Prop :=
  ∀ entry ∈ state.owed, (state.load.bind fun receipt => receipt.lookup entry.id)
    = state.owed.find? fun other => other.id == entry.id

instance (state : State) : Decidable (Kept state) :=
  inferInstanceAs (Decidable (∀ entry ∈ state.owed, _ = _))

/-- What a call has loaded, where it is about to rename its file. -/
def Stage.loaded? : Stage → Option (Option Receipt)
  | .placing loaded _ => some loaded
  | _ => none

/-- A temporary file is created while there is none, and renamed if the receipt on disk
has no entry, but for those that the call itself changes, that the one that the call has
loaded has not. -/
def Undisturbed (state : State) : Label → Prop
  | .create _ => state.temp = none
  | .rename n => ∀ call ∈ state.calls[n]?, ∀ loaded ∈ call.stage.loaded?, ∀ receipt ∈ state.load,
      ∀ entry ∈ receipt.entries, call.edit.touches entry.id = false →
        (loaded.bind fun earlier => earlier.lookup entry.id) = receipt.lookup entry.id
  | _ => True

instance (state : State) : ∀ label, Decidable (Undisturbed state label)
  | .create _ => inferInstanceAs (Decidable (_ = _))
  | .rename n => inferInstanceAs <| Decidable <|
      ∀ call ∈ state.calls[n]?, ∀ loaded ∈ call.stage.loaded?, ∀ receipt ∈ state.load,
        ∀ entry ∈ receipt.entries, call.edit.touches entry.id = false →
          (loaded.bind fun earlier => earlier.lookup entry.id) = receipt.lookup entry.id
  | .begin _ | .load _ _ | .write _ | .clean _ => isTrue trivial

/-! ## One edit -/

variable {size} {state next : State} {label : Label} {edit : Edit} {owed : List ReceiptEntry}

theorem find?_isSome_of_mem {entry : ReceiptEntry} (mem : entry ∈ owed) :
    ∃ found ∈ owed, found.id = entry.id ∧
      (owed.find? fun other => other.id == entry.id) = some found := by
  have some : (owed.find? fun other => other.id == entry.id).isSome = true := by
    rw [List.find?_isSome]
    exact ⟨entry, mem, by simp⟩
  rcases Option.isSome_iff_exists.mp some with ⟨found, foundEq⟩
  refine ⟨found, List.mem_of_find?_eq_some foundEq, ?_, foundEq⟩
  simpa using List.find?_some foundEq

theorem lastEntry_eq_none {entries : List ReceiptEntry} {id : String}
    (none : lastEntry entries id = none) : (Edit.record entries).touches id = false := by
  rw [Bool.eq_false_iff]
  intro touched
  rcases List.any_eq_true.mp touched with ⟨entry, mem, same⟩
  exact List.find?_eq_none.mp none entry (List.mem_reverse.mpr mem) same

/-- The other entries are owed when one is removed. -/
theorem find?_owe_remove {id removed : String} (other : id ≠ removed) :
    ((Edit.remove removed).owe owed).find? (fun entry => entry.id == id)
      = owed.find? fun entry => entry.id == id := by
  simp only [Edit.owe, List.find?_filter]
  congr 1
  funext entry
  by_cases same : entry.id = id
  · simp [same, other]
  · simp [same]

/-- A receipt made from one that had what is owed has what is owed. -/
theorem lookup_of_edit {dataDir : PathBuf} {stamp : Stamp} {loaded : Option Receipt}
    {receipt : Receipt} (made : edit.receipt dataDir stamp loaded = some receipt)
    (had : ∀ entry ∈ owed, edit.touches entry.id = false →
      (loaded.bind fun receipt => receipt.lookup entry.id)
        = owed.find? fun other => other.id == entry.id) :
    ∀ entry ∈ edit.owe owed, receipt.lookup entry.id
      = (edit.owe owed).find? fun other => other.id == entry.id := by
  intro entry mem
  cases edit with
  | record entries =>
      rcases find?_isSome_of_mem mem with ⟨found, -, foundId, foundEq⟩
      rw [foundEq]
      simp only [Edit.owe, find?_foldl_upsert] at foundEq
      cases made
      apply Receipt.lookup_record
      cases last : lastEntry entries entry.id with
      | some latest =>
          rw [last] at foundEq
          exact foundEq
      | none =>
          rw [last, Option.none_or] at foundEq
          have foundMem := List.mem_of_find?_eq_some foundEq
          have same := had found foundMem (by rw [foundId]; exact lastEntry_eq_none last)
          rw [foundId] at same
          rw [Option.none_or, same]
          exact foundEq
  | remove removed =>
      have kept := List.mem_filter.mp mem
      have other : entry.id ≠ removed := by simpa using kept.2
      rw [find?_owe_remove other, Receipt.lookup_remove made other]
      apply had entry kept.1
      simpa [Edit.touches] using other.symm

/-! ## What is carried along -/

/-- A call has its temporary file open. -/
def Stage.holds : Stage → Bool
  | .writing _ _ _ | .placing _ _ => true
  | _ => false

/-- The receipt of a call comes from what it has loaded, and the temporary file is its own. -/
def Call.Fits (state : State) (call : Call) : Prop :=
  match call.stage with
  | .loading | .ended => True
  | .creating loaded receipt => ∃ stamp, call.edit.receipt state.dataDir stamp loaded = some receipt
  | .writing loaded receipt node =>
      (∃ stamp, call.edit.receipt state.dataDir stamp loaded = some receipt) ∧
        state.temp = some node ∧ state.nodes[node]? = some (.torn 0)
  | .placing loaded receipt =>
      (∃ stamp, call.edit.receipt state.dataDir stamp loaded = some receipt) ∧
        ∃ node, state.temp = some node ∧ state.nodes[node]? = some (.text receipt)
  | .cleaning => False

/-- What every step of the receipt keeps. -/
structure Carried (state : State) : Prop where
  kept : Kept state
  fits : ∀ (n : Nat) (call : Call), state.calls[n]? = some call → call.Fits state
  alone : ∀ (n m : Nat) (first second : Call),
    state.calls[n]? = some first → state.calls[m]? = some second →
    first.stage.holds = true → second.stage.holds = true → n = m
  apart : ∀ node, state.receipt = some node → state.temp ≠ some node ∧ node < state.nodes.length

/-- A call that has no file open does not depend on the files. -/
theorem Call.Fits.frame {call : Call} (fits : call.Fits state) (closed : call.stage.holds = false)
    (dataDir : next.dataDir = state.dataDir) : call.Fits next := by
  rcases call with ⟨edit, stage⟩
  cases stage with
  | loading | ended => trivial
  | creating loaded receipt =>
      simp only [Call.Fits] at *
      rw [dataDir]
      exact fits
  | writing | placing => cases closed
  | cleaning => exact fits

theorem Call.Fits.sameFiles {call : Call} (fits : call.Fits state)
    (dataDir : next.dataDir = state.dataDir) (nodes : next.nodes = state.nodes)
    (temp : next.temp = state.temp) : call.Fits next := by
  unfold Call.Fits at *
  rw [dataDir, nodes, temp]
  exact fits

/-- A call that has its file open is the only one. -/
theorem Carried.others_closed (carried : Carried state) {n m : Nat} {call other : Call}
    (there : state.calls[n]? = some call) (opened : call.stage.holds = true) (differ : m ≠ n)
    (otherThere : state.calls[m]? = some other) : other.stage.holds = false := by
  rw [Bool.eq_false_iff]
  intro otherOpened
  exact differ (carried.alone m n other call otherThere there otherOpened opened)

/-- A call stays alone when one goes on that was alone, or has no file open any more. -/
theorem Carried.alone_set (carried : Carried state) {n : Nat} {call after : Call}
    (there : state.calls[n]? = some call)
    (opens : after.stage.holds = true → call.stage.holds = true ∨ state.temp = none) :
    ∀ (k m : Nat) (first second : Call), (state.calls.set n after)[k]? = some first →
      (state.calls.set n after)[m]? = some second →
      first.stage.holds = true → second.stage.holds = true → k = m := by
  have noOther : after.stage.holds = true →
      ∀ (m : Nat) (other : Call), m ≠ n → state.calls[m]? = some other →
      other.stage.holds = false := by
    intro opened m other differ otherThere
    rcases opens opened with before | noTemp
    · exact carried.others_closed there before differ otherThere
    · rw [Bool.eq_false_iff]
      intro otherOpened
      have fits := carried.fits m other otherThere
      rcases other with ⟨edit, stage⟩
      cases stage with
      | loading | creating | cleaning | ended => cases otherOpened
      | writing loaded receipt node => cases noTemp.symm.trans fits.2.1
      | placing loaded receipt =>
          rcases fits.2 with ⟨node, temp, -⟩
          cases noTemp.symm.trans temp
  intro k m first second firstThere secondThere firstOpened secondOpened
  rcases getElem?_set_cases firstThere with ⟨rfl, rfl⟩ | ⟨firstOther, firstBefore⟩
  · rcases getElem?_set_cases secondThere with ⟨rfl, -⟩ | ⟨secondOther, secondBefore⟩
    · rfl
    · have closed := noOther firstOpened m second secondOther secondBefore
      exact absurd (secondOpened.symm.trans closed) (by decide)
  · rcases getElem?_set_cases secondThere with ⟨rfl, rfl⟩ | ⟨secondOther, secondBefore⟩
    · have closed := noOther secondOpened k first firstOther firstBefore
      exact absurd (firstOpened.symm.trans closed) (by decide)
    · exact carried.alone k m first second firstBefore secondBefore firstOpened secondOpened

/-- The receipt keeps what it owes when its file is left alone. -/
theorem Kept.frame (kept : Kept state) (load : next.load = state.load)
    (owed : next.owed = state.owed) : Kept next := by
  unfold Kept
  rw [load, owed]
  exact kept

/-- What is loaded has what is owed if the receipt has no other entries. -/
theorem Kept.of_loaded {loaded : Option Receipt} (kept : Kept state)
    (same : ∀ receipt ∈ state.load, ∀ entry ∈ receipt.entries, edit.touches entry.id = false →
      (loaded.bind fun earlier => earlier.lookup entry.id) = receipt.lookup entry.id) :
    ∀ entry ∈ state.owed, edit.touches entry.id = false →
      (loaded.bind fun receipt => receipt.lookup entry.id)
        = state.owed.find? fun other => other.id == entry.id := by
  intro entry mem untouched
  have here := kept entry mem
  rcases find?_isSome_of_mem mem with ⟨found, -, foundId, foundEq⟩
  rcases Option.bind_eq_some_iff.mp (here.trans foundEq) with ⟨receipt, loads, inReceipt⟩
  have onDisk := same receipt loads found (List.mem_of_find?_eq_some inReceipt)
    (by rw [foundId]; exact untouched)
  rw [foundId] at onDisk
  rw [onDisk, inReceipt, foundEq]

/-- A call that finds nothing to remove owes nothing new. -/
theorem Kept.finish_unwritten {n : Nat} {stamp : Stamp} (kept : Kept state)
    (unwritten : edit.receipt state.dataDir stamp state.load = none) :
    Kept (state.finish n edit) := by
  cases edit with
  | record entries => cases unwritten
  | remove removed =>
      intro entry mem
      have keptEntry := List.mem_filter.mp mem
      have other : entry.id ≠ removed := by simpa using keptEntry.2
      have same : ((state.finish n (.remove removed)).owed.find? fun other => other.id == entry.id)
          = state.owed.find? fun other => other.id == entry.id := find?_owe_remove other
      rw [same]
      exact kept entry keptEntry.1

/-! ## Each step -/

theorem Carried.begin (carried : Carried state) (edit : Edit) :
    Carried { state with calls := state.calls ++ [⟨edit, .loading⟩] } where
  kept := carried.kept
  fits := by
    intro n call there
    rcases getElem?_concat_cases there with earlier | ⟨-, rfl⟩
    · exact (carried.fits n call earlier).sameFiles rfl rfl rfl
    · trivial
  alone := by
    intro n m first second firstThere secondThere firstOpened secondOpened
    rcases getElem?_concat_cases firstThere with firstEarlier | ⟨-, rfl⟩
    · rcases getElem?_concat_cases secondThere with secondEarlier | ⟨-, rfl⟩
      · exact carried.alone n m first second firstEarlier secondEarlier firstOpened secondOpened
      · cases secondOpened
    · cases firstOpened
  apart := carried.apart

/-- A call that goes on without touching the files. -/
theorem Carried.setStage (carried : Carried state) {n : Nat} {call : Call} {stage : Stage}
    (there : state.calls[n]? = some call) (closed : stage.holds = false)
    (fits : Call.Fits state ⟨call.edit, stage⟩) : Carried (state.setStage n call.edit stage) where
  kept := carried.kept
  fits := by
    intro m other otherThere
    rcases getElem?_set_cases otherThere with ⟨-, rfl⟩ | ⟨-, before⟩
    · exact fits.sameFiles rfl rfl rfl
    · exact (carried.fits m other before).sameFiles rfl rfl rfl
  alone := by
    apply carried.alone_set there
    intro opened
    exact absurd (opened.symm.trans closed) (by decide)
  apart := carried.apart

theorem Carried.create (carried : Carried state) {n : Nat} {loaded : Option Receipt}
    {receipt : Receipt} (there : state.calls[n]? = some ⟨edit, .creating loaded receipt⟩)
    (noTemp : state.temp = none) :
    Carried (state.create.1.setStage n edit (.writing loaded receipt state.create.2)) := by
  have created : state.create = ({ state with
      nodes := state.nodes ++ [.torn 0]
      temp := some state.nodes.length }, state.nodes.length) := by
    rw [State.create, noTemp]
  rw [created]
  refine ⟨?_, ?_, ?_, ?_⟩
  · refine carried.kept.frame ?_ rfl
    unfold State.load
    cases receiptEq : state.receipt with
    | none => simp [State.setStage]
    | some node =>
        have within := (carried.apart node receiptEq).2
        simp [State.setStage, List.getElem?_append_left within]
  · intro m other otherThere
    rcases getElem?_set_cases otherThere with ⟨-, rfl⟩ | ⟨differ, before⟩
    · exact ⟨carried.fits n _ there, rfl, by simp [State.setStage]⟩
    · refine (carried.fits m other before).frame ?_ rfl
      rw [Bool.eq_false_iff]
      intro opened
      have fits := carried.fits m other before
      rcases other with ⟨otherEdit, stage⟩
      cases stage with
      | loading | creating | cleaning | ended => cases opened
      | writing _ _ node => cases noTemp.symm.trans fits.2.1
      | placing _ _ =>
          rcases fits.2 with ⟨node, temp, -⟩
          cases noTemp.symm.trans temp
  · apply carried.alone_set there
    intro
    exact Or.inr noTemp
  · intro node receiptEq
    have within := (carried.apart node receiptEq).2
    constructor
    · intro same
      cases same
      exact absurd within (Nat.lt_irrefl _)
    · simp only [State.setStage, List.length_append]
      omega

theorem Carried.write (carried : Carried state) {n node : Nat} {loaded : Option Receipt}
    {receipt : Receipt} (there : state.calls[n]? = some ⟨edit, .writing loaded receipt node⟩) :
    Carried ({ state with
      nodes := state.nodes.modify node fun content => content.overwrite size receipt }.setStage
        n edit (.placing loaded receipt)) := by
  have fits := carried.fits n _ there
  rcases fits with ⟨made, temp, torn⟩
  refine ⟨?_, ?_, ?_, ?_⟩
  · refine carried.kept.frame ?_ rfl
    unfold State.load
    cases receiptEq : state.receipt with
    | none => simp [State.setStage]
    | some other =>
        have apart : node ≠ other := by
          intro same
          exact (carried.apart other receiptEq).1 (same ▸ temp)
        simp [State.setStage, apart]
  · intro m other otherThere
    rcases getElem?_set_cases otherThere with ⟨-, rfl⟩ | ⟨differ, before⟩
    · refine ⟨made, node, temp, ?_⟩
      simp [State.setStage, torn, Content.overwrite]
    · exact (carried.fits m other before).frame (carried.others_closed there rfl differ before) rfl
  · apply carried.alone_set there
    intro
    exact Or.inl rfl
  · intro other receiptEq
    have apart := carried.apart other receiptEq
    refine ⟨apart.1, ?_⟩
    simp only [State.setStage, List.length_modify]
    exact apart.2

theorem Carried.rename (carried : Carried state) {n node : Nat} {loaded : Option Receipt}
    {receipt : Receipt} (there : state.calls[n]? = some ⟨edit, .placing loaded receipt⟩)
    (temp : state.temp = some node)
    (had : ∀ entry ∈ state.owed, edit.touches entry.id = false →
      (loaded.bind fun receipt => receipt.lookup entry.id)
        = state.owed.find? fun other => other.id == entry.id) :
    Carried ({ state with receipt := some node, temp := none }.finish n edit) := by
  rcases carried.fits n _ there with ⟨⟨stamp, made⟩, other, otherTemp, text⟩
  cases Option.some.inj (temp.symm.trans otherTemp)
  refine ⟨?_, ?_, ?_, ?_⟩
  · have loads : ({ state with receipt := some node, temp := none }.finish n edit).load
        = some receipt := by
      simp [State.load, State.finish, State.setStage, text, Content.read]
    intro entry mem
    rw [loads]
    exact lookup_of_edit made had entry mem
  · intro m call otherThere
    rcases getElem?_set_cases otherThere with ⟨-, rfl⟩ | ⟨differ, before⟩
    · trivial
    · exact (carried.fits m call before).frame (carried.others_closed there rfl differ before) rfl
  · apply carried.alone_set there
    intro opened
    cases opened
  · intro inPlace receiptEq
    cases receiptEq
    constructor
    · intro same
      cases same
    · rcases List.getElem?_eq_some_iff.mp text with ⟨within, -⟩
      exact within

theorem Carried.step (carried : Carried state) (undisturbed : Undisturbed state label)
    (stepEq : Ledger.step size state label = some next) : Carried next := by
  cases label with
  | begin edit =>
      rw [← Option.some.inj stepEq]
      exact carried.begin edit
  | load n stamp =>
      simp only [Ledger.step] at stepEq
      split at stepEq
      · next edit there =>
        split at stepEq
        · next receipt made =>
          rw [← Option.some.inj stepEq]
          exact carried.setStage there rfl ⟨stamp, made⟩
        · next unwritten =>
          rw [← Option.some.inj stepEq]
          have ended : Carried (state.setStage n edit .ended) :=
            carried.setStage there rfl trivial
          refine ⟨carried.kept.finish_unwritten unwritten, ?_, ended.alone, ended.apart⟩
          intro m call callThere
          exact (ended.fits m call callThere).sameFiles rfl rfl rfl
      · cases stepEq
  | create n =>
      simp only [Ledger.step] at stepEq
      split at stepEq
      · next edit loaded receipt there =>
        rw [← Option.some.inj stepEq]
        exact carried.create there undisturbed
      · cases stepEq
  | write n =>
      simp only [Ledger.step] at stepEq
      split at stepEq
      · next edit loaded receipt node there =>
        rw [← Option.some.inj stepEq]
        exact carried.write there
      · cases stepEq
  | rename n =>
      simp only [Ledger.step] at stepEq
      split at stepEq
      · next edit loaded receipt there =>
        split at stepEq
        · next node temp =>
          rw [← Option.some.inj stepEq]
          exact carried.rename there temp (carried.kept.of_loaded (undisturbed _ there loaded rfl))
        · next noTemp =>
          rcases carried.fits n _ there with ⟨-, node, temp, -⟩
          cases noTemp.symm.trans temp
      · cases stepEq
  | clean n =>
      simp only [Ledger.step] at stepEq
      split at stepEq
      · next edit there => exact (carried.fits n _ there).elim
      · cases stepEq

/-- In a run in which each temporary file is created while there is none, and none replaces
a receipt that has gained or changed an entry since it was loaded, the receipt has what was
recorded last and not removed since. -/
theorem kept_of_along {dataDir : PathBuf} {labels : List Label}
    (undisturbed : Along (step size) Undisturbed (.init dataDir) labels) :
    ∀ count middle, run (step size) (.init dataDir) (labels.take count) = some middle →
      Kept middle := by
  intro count middle passed
  have initially : Carried (.init dataDir) := by
    refine ⟨?_, ?_, ?_, ?_⟩
    · intro entry mem
      cases mem
    · intro n call there
      cases there
    · intro n m first second there
      cases there
    · intro node receiptEq
      cases receiptEq
  exact (run_invariant_along Carried (fun _ _ _ carried undisturbed stepEq =>
    carried.step undisturbed stepEq) initially (undisturbed.take count) passed).kept

/-- The directory of the default installation. -/
def dataDir : PathBuf := absolute ["home", "u", ".local", "share", "cloto-system"]

/-- A server directory. -/
def serverEntry (id : String) : ReceiptEntry :=
  .dir ("mcp:" ++ id) (dataDir.join (relative ["mcp-servers", id]))

/-- A version and a time. -/
def stamp : Stamp where
  appVersion := "0.6.8"
  now := "2026-07-27T00:00:00Z"

/-- Two servers are recorded one after the other. -/
theorem kept_two_servers :
    ∃ target, run (step fun receipt => receipt.entries.length) (.init dataDir)
        [.begin (.record [serverEntry "a"]), .load 0 stamp, .create 0, .write 0, .rename 0,
          .begin (.record [serverEntry "b"]), .load 1 stamp, .create 1, .write 1, .rename 1]
          = some target ∧ Kept target := by
  have runs : (run (step fun receipt => receipt.entries.length) (.init dataDir)
      [.begin (.record [serverEntry "a"]), .load 0 stamp, .create 0, .write 0, .rename 0,
        .begin (.record [serverEntry "b"]), .load 1 stamp, .create 1, .write 1,
        .rename 1]).isSome = true := by
    decide +kernel
  rcases Option.isSome_iff_exists.mp runs with ⟨target, ran⟩
  have undisturbed : Along (step fun receipt => receipt.entries.length) Undisturbed (.init dataDir)
      [.begin (.record [serverEntry "a"]), .load 0 stamp, .create 0, .write 0, .rename 0,
        .begin (.record [serverEntry "b"]), .load 1 stamp, .create 1, .write 1, .rename 1] := by
    decide +kernel
  exact ⟨target, ran, kept_of_along undisturbed 10 target ran⟩

/-- The server that is recorded while another one is gets lost. -/
theorem server_lost :
    ¬ ∀ size labels target, run (step size) (.init dataDir) labels = some target →
      (∀ call ∈ target.calls, call.stage.hasEnded = true) → Kept target := by
  intro always
  have lost : (run (step fun receipt => receipt.entries.length) (.init dataDir)
      [.begin (.record [serverEntry "a"]), .begin (.record [serverEntry "b"]), .load 0 stamp,
        .load 1 stamp, .create 0, .write 0, .rename 0, .create 1, .write 1, .rename 1]).any
        (fun target => ¬ Kept target ∧ ∀ call ∈ target.calls, call.stage.hasEnded = true)
          = true := by
    decide +kernel
  rcases (Option.any_eq_true ..).mp lost with ⟨target, ran, lost⟩
  rcases of_decide_eq_true lost with ⟨lost, ended⟩
  exact lost (always _ _ target ran ended)

end ClotoCore.Defender.Ledger
