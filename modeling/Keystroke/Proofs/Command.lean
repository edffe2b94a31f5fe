import Keystroke.Command
import Keystroke.Proofs.Utf8

namespace Keystroke.Command

def Effect.printed? : Effect → Option Text
  | .print text => some text
  | .wait _ | .log _ => none

@[simp] theorem Effect.printed?_print (text : Text) : printed? (.print text) = some text := rfl
@[simp] theorem Effect.printed?_wait (seconds : Binary64) : printed? (.wait seconds) = none := rfl
@[simp] theorem Effect.printed?_log (r : LogRecord) : printed? (.log r) = none := rfl

def printed (effects : List Effect) : List Text := effects.filterMap Effect.printed?

theorem printLine_eq (line : Text) (rest : Feed Effect Failure) :
    printLine line rest =
      if line.NoSurrogate then rest.cons (.print (line ++ "\n")) else ⟨[], some .textNotUtf8⟩ := by
  have h : line.NoSurrogate ↔ ¬ line.any CodePoint.isSurrogate = true := by simp [Text.NoSurrogate]
  simp only [h, ite_not, printLine]

theorem printed_foldr_logged (level : LogLevel) (r : LogRecord) (f : Feed Effect Failure) :
    printed ((logged level r).foldr Feed.cons f).items = printed f.items ∧
      ((logged level r).foldr Feed.cons f).failure = f.failure := by
  rw [logged]
  split <;> exact ⟨rfl, rfl⟩

theorem ofFeed_done_iff {level : LogLevel} {f : Feed Effect Failure} :
    (Report.ofFeed level f).ending = .done ↔ f.failure = none := by
  rw [Report.ofFeed]
  cases f.failure <;> simp

end Keystroke.Command
