import Mathlib.Data.List.Perm.Basic

/-!
# Questions and their answers

In a sequence of questions and answers, each question asks for a number of things by
their ids and each answer gives one of them.  The sequence is paired if the answers
behind each question are those that it asks for.
-/

namespace ClotoCore.Sequence

universe u v

variable {μ : Type u} {κ : Type v} (role : μ → List κ ⊕ κ)

/-- What is answered before the next question. -/
def answers : List μ → List κ
  | [] => []
  | message :: rest =>
      match role message with
      | .inl _ => []
      | .inr id => id :: answers rest

/-- Behind each question are the answers that it asks for, in any order. -/
def Answered : List μ → Prop
  | [] => True
  | message :: rest =>
      match role message with
      | .inl asked => (answers role rest).Perm asked ∧ Answered rest
      | .inr _ => Answered rest

/-- No answer comes before the first question, and each question is answered. -/
structure Paired (messages : List μ) : Prop where
  opened : answers role messages = []
  answered : Answered role messages

/-- A message that asks. -/
def IsQuestion (message : μ) : Prop :=
  (role message).isLeft = true

instance (message : μ) : Decidable (IsQuestion role message) :=
  inferInstanceAs (Decidable (_ = true))

/-- Whether all questions are answered can be decided. -/
def decideAnswered [DecidableEq κ] : ∀ messages, Decidable (Answered role messages)
  | [] => isTrue trivial
  | message :: rest =>
      have := decideAnswered rest
      match kind : role message with
      | .inl asked =>
          decidable_of_iff ((answers role rest).Perm asked ∧ Answered role rest) <| by
            simp [Answered, kind]
      | .inr _ =>
          decidable_of_iff (Answered role rest) <| by
            simp [Answered, kind]

instance [DecidableEq κ] (messages : List μ) : Decidable (Answered role messages) :=
  decideAnswered role messages

instance [DecidableEq κ] (messages : List μ) : Decidable (Paired role messages) :=
  decidable_of_iff (answers role messages = [] ∧ Answered role messages)
    ⟨fun paired => ⟨paired.1, paired.2⟩, fun paired => ⟨paired.opened, paired.answered⟩⟩

variable {role} {message question : μ} {messages results : List μ} {asked : List κ}

theorem paired_nil : Paired role [] where
  opened := rfl
  answered := trivial

theorem answers_cons_question (asks : role question = .inl asked) :
    answers role (question :: messages) = [] := by
  simp [answers, asks]

theorem answers_append_question (asks : role question = .inl asked) :
    answers role (messages ++ question :: results) = answers role messages := by
  induction messages with
  | nil => exact answers_cons_question asks
  | cons message messages ih =>
      rw [List.cons_append, answers, answers]
      split
      · rfl
      · rw [ih]

/-- What is answered up to a question does not depend on what follows it. -/
theorem answered_append_question (asks : role question = .inl asked) :
    Answered role (messages ++ question :: results) ↔
      Answered role messages ∧ Answered role (question :: results) := by
  induction messages with
  | nil => simp [Answered]
  | cons message messages ih =>
      rw [List.cons_append, Answered, Answered, answers_append_question asks]
      split
      · rw [ih, and_assoc]
      · exact ih

theorem answered_of_answers (only : ∀ message ∈ results, ¬ IsQuestion role message) :
    Answered role results := by
  induction results with
  | nil => trivial
  | cons message results ih =>
      rw [Answered]
      split
      · next asked asks =>
        exact absurd (by simp [IsQuestion, asks]) (only message List.mem_cons_self)
      · exact ih fun other mem => only other (List.mem_cons_of_mem _ mem)

theorem Answered.drop (answered : Answered role messages) (count : Nat) :
    Answered role (messages.drop count) := by
  induction messages generalizing count with
  | nil => simpa using answered
  | cons message messages ih =>
      cases count with
      | zero => exact answered
      | succ count =>
          rw [List.drop_succ_cons]
          apply ih
          rw [Answered] at answered
          split at answered
          · exact answered.2
          · exact answered

theorem answers_eq_nil_iff :
    answers role messages = [] ↔ ∀ message ∈ messages.head?, IsQuestion role message := by
  cases messages with
  | nil => simp [answers]
  | cons message messages =>
      rw [answers]
      split
      · next asked asks => simp [IsQuestion, asks]
      · next id answer => simp [IsQuestion, answer]

/-- A question with its answers goes behind what is paired, and the front is cut off:
the rest is paired exactly if the answers are those asked for and the cut is before a
question. -/
theorem paired_drop_iff (paired : Paired role messages) (asks : role question = .inl asked)
    (only : ∀ message ∈ results, ¬ IsQuestion role message) {count : Nat}
    (left : count ≤ messages.length + results.length) :
    Paired role ((messages ++ question :: results).drop count) ↔
      (answers role results).Perm asked ∧ count ≤ messages.length ∧
        ∀ message ∈ messages[count]?, IsQuestion role message := by
  by_cases within : count ≤ messages.length
  · rw [List.drop_append_of_le_length within]
    have round : Answered role (question :: results) ↔ (answers role results).Perm asked := by
      simp [Answered, asks, answered_of_answers only]
    have opened : answers role (messages.drop count) = [] ↔
        ∀ message ∈ messages[count]?, IsQuestion role message := by
      rw [answers_eq_nil_iff, List.head?_drop]
    constructor
    · intro whole
      refine ⟨?_, within, ?_⟩
      · exact round.mp ((answered_append_question asks).mp whole.answered).2
      · apply opened.mp
        rw [← answers_append_question asks]
        exact whole.opened
    · rintro ⟨perm, -, first⟩
      constructor
      · rw [answers_append_question asks]
        exact opened.mpr first
      · exact (answered_append_question asks).mpr ⟨paired.answered.drop count, round.mpr perm⟩
  · simp only [within, false_and, and_false, iff_false]
    intro whole
    rcases Nat.exists_eq_add_of_lt (Nat.lt_of_not_le within) with ⟨skipped, countEq⟩
    have dropped : (messages ++ question :: results).drop count = results.drop skipped := by
      rw [countEq, Nat.add_assoc, List.drop_length_add_append, List.drop_succ_cons]
    have short : skipped < results.length := by omega
    have first := answers_eq_nil_iff.mp whole.opened results[skipped]
    rw [dropped, List.head?_drop, List.getElem?_eq_getElem short] at first
    exact only _ (List.getElem_mem short) (first rfl)

/-- Each answer comes before any question, or gives one of the things that the last
question before it asks for. -/
theorem Answered.of_answer {before after : List μ} {id : κ}
    (answered : Answered role (before ++ message :: after)) (answer : role message = .inr id) :
    ((∀ other ∈ before, ¬ IsQuestion role other) ∧
        id ∈ answers role (before ++ message :: after)) ∨
      ∃ earlier question between asked, before = earlier ++ question :: between ∧
        role question = .inl asked ∧ (∀ other ∈ between, ¬ IsQuestion role other) ∧
        id ∈ asked := by
  induction before with
  | nil => simp [answers, answer]
  | cons first before ih =>
      rw [List.cons_append, Answered] at answered
      cases kind : role first with
      | inl asked =>
          rw [kind] at answered
          right
          rcases ih answered.2 with ⟨only, given⟩ | ⟨earlier, question, between, other, split, rest⟩
          · exact ⟨[], first, before, asked, rfl, kind, only, answered.1.mem_iff.mp given⟩
          · exact ⟨first :: earlier, question, between, other, by rw [split]; rfl, rest⟩
      | inr early =>
          rw [kind] at answered
          rcases ih answered with ⟨only, given⟩ | ⟨earlier, question, between, other, split, rest⟩
          · left
            constructor
            · intro other mem
              rcases List.mem_cons.mp mem with rfl | mem
              · simp [IsQuestion, kind]
              · exact only other mem
            · rw [List.cons_append, answers, kind]
              exact List.mem_cons_of_mem _ given
          · right
            exact ⟨first :: earlier, question, between, other, by rw [split]; rfl, rest⟩

/-- In what is paired each answer gives one of the things that the last question before
it asks for. -/
theorem Paired.question_of_answer {before after : List μ} {id : κ}
    (paired : Paired role (before ++ message :: after)) (answer : role message = .inr id) :
    ∃ earlier question between asked, before = earlier ++ question :: between ∧
      role question = .inl asked ∧ (∀ other ∈ between, ¬ IsQuestion role other) ∧ id ∈ asked := by
  rcases paired.answered.of_answer answer with ⟨-, given⟩ | found
  · rw [paired.opened] at given
    cases given
  · exact found

end ClotoCore.Sequence
