import Keystroke.Proofs.Recorder
import Keystroke.Proofs.Trace.File
import Keystroke.Recording

namespace Keystroke.Recording

variable {α ε : Type}

def Answer.item? : Answer α ε → Option α
  | .pulled (.item a) => some a
  | _ => none

/-- What comes of saving: the file of the path holds the trace and files of other places are read as before, or
an event or the path stands in the way and all is as it was. -/
inductive SaveOutcome (r : Recording α ε) (path : Path) : Answer α ε × Recording α ε → Prop
  | saved {data : Bytes} {place : Path} {files : Files} (encoded : Trace.encode r.events = .ok data)
      (located : r.files.locate path = .ok place) (read_eq : files.read path = .ok data)
      (read_other : ∀ q data', r.files.locate q ≠ .ok place →
        (files.read q = .ok data' ↔ r.files.read q = .ok data')) :
      SaveOutcome r path (.done, { r with files })
  | notEncoded {e : Trace.EncodeError} (h : Trace.encode r.events = .error e) :
      SaveOutcome r path (.notSaved (.encoding e), r)
  | notWritten {data : Bytes} {e : FileError} (encoded : Trace.encode r.events = .ok data)
      (h : r.files.locate path = .error e) : SaveOutcome r path (.notSaved (.file e), r)

theorem saveOutcome (r : Recording α ε) (path : Path) : SaveOutcome r path (r.save path) := by
  cases hencode : Trace.encode r.events with
  | error e =>
      rw [save, Trace.saveInPlace_of_encodeError hencode]
      exact .notEncoded hencode
  | ok data =>
      cases hplace : r.files.locate path with
      | error e =>
          rw [save, Trace.saveInPlace_of_fileError hencode hplace]
          exact .notWritten hencode hplace
      | ok place =>
          have hwrite : r.files.write path data = .ok ⟨Files.put place data r.files.entries⟩ :=
            Files.write_eq_ok_iff.2 ⟨place, hplace, rfl⟩
          rw [save, Trace.saveInPlace_of_ok hencode hplace]
          exact .saved hencode hplace (Files.read_of_write hwrite) fun q data' hq =>
            Files.read_of_write_of_ne hwrite hplace hq

theorem save_recorder (r : Recording α ε) (path : Path) :
    (r.save path).2.recorder = r.recorder ∧ (r.save path).1.item? = none := by
  rw [save]
  split <;> exact ⟨rfl, rfl⟩

theorem Answer.item?_pulled {p : Recorder.Pull α ε} (h : ∀ a, p ≠ .item a) :
    (Answer.pulled p).item? = none := by
  cases p with
  | item a => exact absurd rfl (h a)
  | ended => rfl
  | failed e => rfl

def asked : List (Act α) → Nat
  | [] => 0
  | .pull :: acts => asked acts + 1
  | .stop :: _ => 0
  | .correct _ _ :: acts => asked acts
  | .save _ :: acts => asked acts

variable [DecidableEq α]

theorem step_recorded (r : Recording α ε) (act : Act α) :
    (r.step act).2.recorder.recorded = r.recorder.recorded ++ (r.step act).1.item?.toList := by
  cases act with
  | pull =>
      rcases r.recorder.pull_cases with ⟨a, rest, -, hp⟩ | ⟨-, p, hnone, hp⟩
      · simp only [step, hp]
        rfl
      · simp only [step, hp, Answer.item?_pulled hnone]
        exact (List.append_nil _).symm
  | stop => exact (List.append_nil _).symm
  | correct a c => exact (List.append_nil _).symm
  | save path =>
      obtain ⟨hrecorder, hitem⟩ := save_recorder r path
      rw [step, hrecorder, hitem]
      exact (List.append_nil _).symm

theorem run_recorded (r : Recording α ε) (acts : List (Act α)) :
    (r.run acts).2.recorder.recorded =
      r.recorder.recorded ++ (r.run acts).1.filterMap Answer.item? := by
  induction acts generalizing r with
  | nil => exact (List.append_nil _).symm
  | cons act acts ih =>
      rw [run]
      dsimp only
      rw [ih, step_recorded, List.append_assoc]
      cases h : (r.step act).1.item? with
      | none => rw [List.filterMap_cons_none h]; rfl
      | some a => rw [List.filterMap_cons_some h]; rfl

/-- Items come in the order of the source, one for each time that it is asked and has one. -/
theorem run_delivered (r : Recording α ε) (acts : List (Act α)) :
    (r.run acts).1.filterMap Answer.item? = r.recorder.pending.items.take (asked acts) := by
  induction acts generalizing r with
  | nil => rfl
  | cons act acts ih =>
      rw [run]
      dsimp only
      cases act with
      | pull =>
          rcases r.recorder.pull_cases with ⟨a, rest, hitems, hp⟩ | ⟨hitems, p, hnone, hp⟩
          · have hitem : (Answer.pulled (r.recorder.pull.1)).item? = some a := by rw [hp]; rfl
            rw [step, List.filterMap_cons_some hitem, ih, hp, hitems]
            rfl
          · have hitem : (Answer.pulled (r.recorder.pull.1)).item? = none := by
              rw [hp]
              exact Answer.item?_pulled hnone
            rw [step, List.filterMap_cons_none hitem, ih, hp, hitems]
            simp
      | stop =>
          rw [step, List.filterMap_cons_none rfl, ih]
          exact List.take_nil
      | correct a c =>
          rw [step, List.filterMap_cons_none rfl, ih]
          rfl
      | save path =>
          obtain ⟨hrecorder, hitem⟩ := save_recorder r path
          rw [step, List.filterMap_cons_none hitem, ih, hrecorder]
          rfl

theorem run_pulls (n : Nat) (r : Recording α ε) :
    (r.run (List.replicate n .pull)).2 = { r with recorder := (Recorder.pulls n r.recorder).2 } := by
  induction n generalizing r with
  | zero => rfl
  | succ n ih =>
      rw [List.replicate_succ, run]
      dsimp only
      rw [ih]
      rcases r.recorder.pull_cases with ⟨a, rest, -, hp⟩ | ⟨-, p, hnone, hp⟩
      · simp only [step, Recorder.pulls, hp]
      · simp only [step, hp, Recorder.pulls_closed]
        cases p with
        | item a => exact absurd rfl (hnone a)
        | ended => simp only [Recorder.pulls, hp]
        | failed e => simp only [Recorder.pulls, hp]

/-- At any time of a recording, recorded is what was delivered, which is the source up to where its consumer asked,
also behind a failure of the source and after the consumer stopped. A save then is all or nothing: either the file
of its path holds the trace of what is recorded and no other file changes, or nothing does. This rests on
`Files.fill`, which does not fail once the file is open. -/
theorem run_records (source : Feed α ε) (event : α → Event) (files : Files) (acts : List (Act α)) :
    let (answers, r) := run ⟨{ pending := source }, event, files⟩ acts
    r.recorder.recorded = answers.filterMap Answer.item? ∧
    r.recorder.recorded = source.items.take (asked acts) ∧
    ∀ path, SaveOutcome r path (r.step (.save path)) := by
  have hrecorded := run_recorded ⟨{ pending := source }, event, files⟩ acts
  have hdelivered := run_delivered ⟨{ pending := source }, event, files⟩ acts
  exact ⟨hrecorded, hrecorded.trans hdelivered, saveOutcome _⟩

/-- A recorded event without a character has no line, and the older trace stays. -/
example :
    (run ⟨{ pending := (⟨[⟨2401, 1, 0, 0, 65, [], 0, none⟩], some ()⟩ : Feed Event Unit) }, id,
      ⟨[(.ofText "t", [0x31])]⟩⟩ [.pull, .save (.ofText "t"), .pull]).2.files.read (.ofText "t") =
        .ok [0x31] := rfl

/-- Of two events the recorded one is saved in place of the older trace, beside another file. -/
example :
    let pressed : Event := ⟨2401, 1, 0, 38, 65, "a", 1, none⟩
    let (_, r) := run ⟨{ pending := (⟨[pressed, { pressed with kind := 2402 }], some ()⟩ : Feed Event Unit) }, id,
      ⟨[(.ofText "t", [0x31]), (.ofText "u", [0x32])]⟩⟩ [.pull, .save (.ofText "t"), .pull]
    (r.files.read (.ofText "t")).toOption = some (Utf8.bytes
      ("\x7b\"kind\":2401,\"when\":1,\"modifiers\":0,\"raw_code\":38,\"key_code\":65,\"key_char\":97," ++
        "\"key_location\":1,\"source\":null\x7d\n")) ∧
    (r.files.read (.ofText "u")).toOption = some [0x32] := by
  decide +kernel

end Keystroke.Recording
