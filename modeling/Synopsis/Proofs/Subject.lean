import Synopsis.Proofs.Size
import Synopsis.Summary

/-!
# Subjects that can be asked about

A question about a subject tells its size, and nothing else in it can fail. So there is a question
when the size has a text, which only sizes out of the range of floating point numbers do not have.
-/

namespace Synopsis.Subject

/-- The size that a question about a subject tells. -/
def size : Subject → Int
  | .project facts => facts.totalSize
  | .file record _ => record.size

variable {subject : Subject}

theorem exists_question_iff : (∃ question, subject.question = .ok question) ↔
    ∃ text, sizeText subject.size = .ok text := by
  cases subject with
  | project facts =>
    rw [question, Prompt.ofProject, size]
    cases sizeText facts.totalSize with
    | ok text => exact ⟨fun _ => ⟨text, rfl⟩, fun _ => ⟨_, rfl⟩⟩
    | error fault =>
      constructor
      · rintro ⟨_, h⟩
        cases h
      · rintro ⟨_, h⟩
        cases h
  | file record content =>
    rw [question, Prompt.ofFile, size]
    cases sizeText record.size with
    | ok text => exact ⟨fun _ => ⟨text, rfl⟩, fun _ => ⟨_, rfl⟩⟩
    | error fault =>
      constructor
      · rintro ⟨_, h⟩
        cases h
      · rintro ⟨_, h⟩
        cases h

/-- A subject that cannot be asked about is out of range. -/
theorem size_of_question {fault : SizeOverflow} (h : subject.question = .error fault) :
    2 ^ 1023 ≤ subject.size := by
  refine Int.not_lt.mp fun small => ?_
  obtain ⟨question, asked⟩ := exists_question_iff.mpr (exists_sizeText small)
  cases h.symm.trans asked

end Synopsis.Subject
