import ClotoCore.Panels.Relay
import ClotoCore.Sequence.Window

/-!
# The rate window of panel writes

What the gate keeps of the writes of a panel are the ones that still count, so that it
decides as a sliding window over all that it let through.
-/

namespace ClotoCore.Panels

open ClotoCore.Sequence

/-- An attempt of a panel to write. -/
abbrev Attempt :=
  Event String

/-- The answers of `admit` to attempts.  The lock is held by `admit` alone, which does not
panic, so that it is never poisoned. -/
def admitAll (state : PanelWriteState) : List Attempt → List Bool
  | [] => []
  | attempt :: attempts =>
      let answer := state.admitWrite attempt.kind attempt.time false
      answer.2 :: admitAll answer.1 attempts

/-- What is kept of each panel are the last of its writes, and those no longer kept do not
count any more. -/
structure Tracks (state : PanelWriteState) (history : String → List Nat) (clock : Nat) :
    Prop where
  kept : ∀ panel, ∃ gone, history panel = gone ++ state.recent panel ∧
    ∀ time ∈ gone, time + rateWindow ≤ clock
  ordered : ∀ panel, (history panel).Pairwise (· ≤ ·)
  past : ∀ panel, ∀ time ∈ history panel, time ≤ clock

variable {state : PanelWriteState} {history : String → List Nat} {clock : Nat}
  {attempt : Attempt}

theorem tracks_init (clock : Nat) : Tracks .init (fun _ => []) clock where
  kept := fun _ => ⟨[], rfl, nofun⟩
  ordered := fun _ => List.Pairwise.nil
  past := nofun

/-- Dropping the times in front that are too old leaves the ones that count. -/
theorem dropWhile_eq_lately {times : List Nat} {now : Nat} (ordered : times.Pairwise (· ≤ ·)) :
    times.dropWhile (fun time => decide (rateWindow ≤ now - time)) =
      lately rateWindow now times := by
  induction times with
  | nil => rfl
  | cons time times ih =>
      obtain ⟨first, rest⟩ := List.pairwise_cons.mp ordered
      by_cases old : rateWindow ≤ now - time
      · have gone : ¬now < time + rateWindow := by
          have positive : 0 < rateWindow := by decide
          omega
        rw [List.dropWhile_cons_of_pos (by simpa using old), ih rest, lately, lately,
          List.filter_cons_of_neg (by simpa using gone)]
      · rw [List.dropWhile_cons_of_neg (by simpa using old), lately, List.filter_eq_self.mpr]
        intro other mem
        have later : time ≤ other := by
          rcases List.mem_cons.mp mem with rfl | mem
          · exact Nat.le_refl _
          · exact first other mem
        simp only [decide_eq_true_eq]
        omega

theorem Tracks.fresh (tracks : Tracks state history clock) {now : Nat} (later : clock ≤ now)
    (panel : String) : state.fresh panel now = lately rateWindow now (history panel) := by
  obtain ⟨gone, whole, old⟩ := tracks.kept panel
  have ordered := tracks.ordered panel
  rw [whole] at ordered
  have none : lately rateWindow now gone = [] := by
    refine List.filter_eq_nil_iff.mpr fun time mem => ?_
    have past := old time mem
    simp only [decide_eq_true_eq]
    omega
  rw [PanelWriteState.fresh, dropWhile_eq_lately (List.pairwise_append.mp ordered).2.1, whole,
    lately, lately, List.filter_append]
  rw [lately] at none
  rw [none, List.nil_append]

/-- The gate answers as the window over all that it let through. -/
theorem Tracks.answer (tracks : Tracks state history clock) (later : clock ≤ attempt.time) :
    (state.admitWrite attempt.kind attempt.time false).2 =
      passes writesPerWindow rateWindow history attempt := by
  simp only [PanelWriteState.admitWrite, Bool.false_eq_true, if_false, tracks.fresh later, passes]
  split
  case isTrue full => simpa using full
  case isFalse free => simpa using free

/-- An attempt drops the times of its panel that are too old, and adds its own if it is let
through. -/
theorem recent_admitWrite (tracks : Tracks state history clock) (later : clock ≤ attempt.time)
    (panel : String) :
    (state.admitWrite attempt.kind attempt.time false).1.recent panel =
      if panel = attempt.kind then
        state.fresh panel attempt.time ++
          if passes writesPerWindow rateWindow history attempt then [attempt.time] else []
      else state.recent panel := by
  have answer := tracks.answer later
  simp only [PanelWriteState.admitWrite, Bool.false_eq_true, if_false] at answer ⊢
  split at answer
  case isTrue full =>
    rw [if_pos full, ← answer]
    by_cases own : panel = attempt.kind
    · subst own
      simp [PanelWriteState.keep]
    · simp [PanelWriteState.keep, own]
  case isFalse free =>
    rw [if_neg free, ← answer]
    by_cases own : panel = attempt.kind
    · subst own
      simp [PanelWriteState.keep]
    · simp [PanelWriteState.keep, own]

theorem Tracks.admitWrite (tracks : Tracks state history clock) (later : clock ≤ attempt.time) :
    Tracks (state.admitWrite attempt.kind attempt.time false).1
      (record writesPerWindow rateWindow history attempt) attempt.time where
  kept := by
    intro panel
    obtain ⟨gone, whole, old⟩ := tracks.kept panel
    have older : ∀ time ∈ gone, time + rateWindow ≤ attempt.time := fun time mem =>
      Nat.le_trans (old time mem) later
    rw [recent_admitWrite tracks later, record_apply]
    by_cases own : panel = attempt.kind
    · subst own
      refine ⟨gone ++ (state.recent attempt.kind).takeWhile
        (fun time => decide (rateWindow ≤ attempt.time - time)), ?_, ?_⟩
      · rw [whole, if_pos rfl, PanelWriteState.fresh]
        simp only [and_true, List.append_assoc, List.append_cancel_left_eq]
        rw [← List.append_assoc, List.takeWhile_append_dropWhile]
      · intro time mem
        rcases List.mem_append.mp mem with mem | mem
        · exact older time mem
        · have expired := List.mem_takeWhile_imp mem
          have positive : 0 < rateWindow := by decide
          rw [decide_eq_true_eq] at expired
          omega
    · exact ⟨gone, by simp [whole, own, Ne.symm own], older⟩
  ordered := by
    intro panel
    rw [record_apply]
    split
    case isTrue => exact List.pairwise_append.mpr ⟨tracks.ordered panel,
      List.pairwise_singleton _ _,
      fun time mem other single => by
        rw [List.mem_singleton.mp single]
        exact Nat.le_trans (tracks.past panel time mem) later⟩
    case isFalse => simpa using tracks.ordered panel
  past := by
    intro panel time mem
    rw [record_apply] at mem
    rcases List.mem_append.mp mem with mem | mem
    · exact Nat.le_trans (tracks.past panel time mem) later
    · split at mem
      · rw [List.mem_singleton.mp mem]
      · simp at mem

/-- The gate gives the answers of the window. -/
theorem Tracks.admitAll {attempts : List Attempt} (tracks : Tracks state history clock)
    (later : ∀ attempt ∈ attempts, clock ≤ attempt.time)
    (ordered : attempts.Pairwise fun first second => first.time ≤ second.time) :
    admitAll state attempts = passAll writesPerWindow rateWindow history attempts := by
  induction attempts generalizing state history clock with
  | nil => rfl
  | cons attempt attempts ih =>
      obtain ⟨first, rest⟩ := List.pairwise_cons.mp ordered
      have now := later attempt List.mem_cons_self
      rw [Panels.admitAll, passAll, tracks.answer now, ih (tracks.admitWrite now) first rest]

theorem admitAll_init {attempts : List Attempt}
    (ordered : attempts.Pairwise fun first second => first.time ≤ second.time) :
    admitAll .init attempts = passAll writesPerWindow rateWindow (fun _ => []) attempts :=
  (tracks_init 0).admitAll (fun _ _ => Nat.zero_le _) ordered

/-- The times of the writes that a panel is let through. -/
def writesOf (panel : String) (attempts : List Attempt) : List Nat :=
  passedTimes panel attempts (admitAll .init attempts)

theorem writesOf_eq {attempts : List Attempt} (panel : String)
    (ordered : attempts.Pairwise fun first second => first.time ≤ second.time) :
    writesOf panel attempts =
      recordAll writesPerWindow rateWindow (fun _ => []) attempts panel := by
  rw [writesOf, admitAll_init ordered, recordAll_apply, List.nil_append]

/-- Of attempts in the order of their times, no window lets a panel write more often than
the limit; an attempt is refused only where the window before it is full; leaving it out
then changes no answer; and a panel gets the answers that it gets alone. -/
theorem rate_window (attempts : List Attempt)
    (ordered : attempts.Pairwise fun first second => first.time ≤ second.time) :
    (∀ panel start,
      (within rateWindow start (writesOf panel attempts)).length ≤ writesPerWindow) ∧
    (∀ before attempt after later, attempts = before ++ attempt :: after →
      admitAll .init attempts = admitAll .init before ++ false :: later →
        ((writesOf attempt.kind before).filter fun time =>
          decide (time ≤ attempt.time ∧ attempt.time < time + rateWindow)).length =
            writesPerWindow ∧
        admitAll .init (before ++ after) = admitAll .init before ++ later) ∧
    ∀ panel, (attempts.zip (admitAll .init attempts)).filter (fun entry => entry.1.kind == panel) =
      (attempts.filter fun attempt => attempt.kind == panel).zip
        (admitAll .init (attempts.filter fun attempt => attempt.kind == panel)) := by
  have windows : ∀ {attempts : List Attempt} (panel : String) (start : Nat),
      attempts.Pairwise (fun first second => first.time ≤ second.time) →
      (within rateWindow start (writesOf panel attempts)).length ≤ writesPerWindow := by
    intro attempts panel start ordered
    rw [writesOf_eq panel ordered]
    exact (limited_empty 0).recordAll (fun _ _ => Nat.zero_le _) ordered panel start
  refine ⟨fun panel start => windows panel start ordered, ?_, ?_⟩
  · rintro before attempt after later rfl refused
    obtain ⟨beforeOrdered, restOrdered, across⟩ := List.pairwise_append.mp ordered
    have withoutOrdered : (before ++ after).Pairwise fun first second => first.time ≤ second.time :=
      List.pairwise_append.mpr ⟨beforeOrdered, (List.pairwise_cons.mp restOrdered).2,
        fun first mem second memAfter => across first mem second (List.mem_cons_of_mem _ memAfter)⟩
    rw [admitAll_init ordered, admitAll_init beforeOrdered] at refused
    have past : ∀ time ∈ writesOf attempt.kind before, time ≤ attempt.time := by
      intro time mem
      obtain ⟨entry, entryMem, rfl⟩ := List.mem_map.mp mem
      have attempted := (List.of_mem_zip (List.mem_filter.mp entryMem).1).1
      exact across entry.1 attempted attempt List.mem_cons_self
    constructor
    · apply Nat.le_antisymm
      · -- what was let through by now lies in the window that ends behind now
        refine Nat.le_trans (List.Sublist.length_le (List.monotone_filter_right _ ?_))
          (windows attempt.kind (attempt.time + 1 - rateWindow) beforeOrdered)
        intro time counts
        simp only [decide_eq_true_eq, Bool.and_eq_true] at counts ⊢
        omega
      · have full := full_of_refused refused
        rw [← writesOf_eq attempt.kind beforeOrdered, lately] at full
        have same : (writesOf attempt.kind before).filter (fun time =>
            decide (time ≤ attempt.time ∧ attempt.time < time + rateWindow)) =
            (writesOf attempt.kind before).filter fun time =>
              decide (attempt.time < time + rateWindow) :=
          List.filter_congr fun time mem => by simp [past time mem]
        rw [same]
        exact full
    · rw [admitAll_init withoutOrdered, admitAll_init beforeOrdered]
      exact passAll_of_refused refused
  · intro panel
    rw [admitAll_init ordered, admitAll_init (ordered.filter _)]
    exact passAll_of_kind rfl

/-- A panel that uses up its window. -/
def busy : List Attempt :=
  List.replicate 30 ⟨"notes", 0⟩

/-- The panel is refused, another one is not, and the window passes. -/
theorem rate_window_busy :
    admitAll .init (busy ++ ⟨"notes", 5⟩ :: [⟨"board", 5⟩, ⟨"notes", rateWindow⟩]) =
        admitAll .init busy ++ false :: [true, true] ∧
      (∀ panel start, (within rateWindow start (writesOf panel
        (busy ++ ⟨"notes", 5⟩ :: [⟨"board", 5⟩, ⟨"notes", rateWindow⟩]))).length ≤
          writesPerWindow) ∧
      admitAll .init (busy ++ [⟨"board", 5⟩, ⟨"notes", rateWindow⟩]) =
        admitAll .init busy ++ [true, true] := by
  have refused : admitAll .init (busy ++ ⟨"notes", 5⟩ :: [⟨"board", 5⟩, ⟨"notes", rateWindow⟩]) =
      admitAll .init busy ++ false :: [true, true] := by
    decide +kernel
  have holds := rate_window (busy ++ ⟨"notes", 5⟩ :: [⟨"board", 5⟩, ⟨"notes", rateWindow⟩])
    (by decide +kernel)
  exact ⟨refused, holds.1, (holds.2.1 busy _ _ _ rfl refused).2⟩

end ClotoCore.Panels
