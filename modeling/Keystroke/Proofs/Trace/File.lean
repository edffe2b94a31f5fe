import Keystroke.Proofs.Files
import Keystroke.Proofs.Trace.Lines
import Keystroke.Trace.File

namespace Keystroke.Trace

variable {depth : Nat}

theorem exists_save {events : List Event} (h : ∀ e ∈ events, e.Encodable) {path place : Path}
    {files : Files} (hplace : files.locate path = .ok place) :
    ∃ saved, save events path files = .ok saved ∧ saved.read path = .ok (trace events) := by
  obtain ⟨saved, hw⟩ := Files.exists_write_of_locate hplace (trace events)
  refine ⟨saved, ?_, Files.read_of_write hw⟩
  rw [save, encode_eq_ok_iff.2 ⟨h, rfl⟩]
  change (files.write path (trace events)).mapError _ = _
  rw [hw]
  rfl

section InPlace

variable {events : List Event} {path place : Path} {files : Files} {data : Bytes}

theorem saveInPlace_of_ok (hencode : encode events = .ok data) (hplace : files.locate path = .ok place) :
    saveInPlace events path files = .ok () ⟨Files.put place data files.entries⟩ := by
  have hopen : (Files.openToWrite path).adaptExcept SaveError.file files =
      .ok place ⟨Files.put place [] files.entries⟩ := by
    simp only [EStateM.adaptExcept, Files.openToWrite_of_ok hplace]
  have hfill : (Files.fill place data).adaptExcept SaveError.file ⟨Files.put place [] files.entries⟩ =
      .ok () ⟨Files.put place data files.entries⟩ := by
    rw [← Files.put_put place [] data]
    rfl
  rw [saveInPlace, hencode]
  exact (run_bind_of_ok rfl).trans ((run_bind_of_ok hopen).trans hfill)

theorem saveInPlace_of_encodeError {e : EncodeError} (h : encode events = .error e) :
    saveInPlace events path files = .error (.encoding e) files := by
  rw [saveInPlace, h]
  rfl

theorem saveInPlace_of_fileError {e : FileError} (hencode : encode events = .ok data)
    (hplace : files.locate path = .error e) :
    saveInPlace events path files = .error (.file e) files := by
  have hopen : (Files.openToWrite path).adaptExcept SaveError.file files = .error (.file e) files := by
    simp only [EStateM.adaptExcept, Files.openToWrite_of_error hplace]
  rw [saveInPlace, hencode]
  exact (run_bind_of_ok rfl).trans (run_bind_of_error hopen)

end InPlace

/-- A save in place comes to the same. A failure is before its file is opened, so no file is left empty. -/
theorem saveInPlace_eq (events : List Event) (path : Path) (files : Files) :
    saveInPlace events path files =
      match save events path files with
      | .ok saved => .ok () saved
      | .error e => .error e files := by
  cases hencode : encode events with
  | error e =>
      rw [saveInPlace_of_encodeError hencode, save, hencode]
      rfl
  | ok data =>
      have hsave : save events path files = (files.write path data).mapError .file := by
        rw [save, hencode]
        rfl
      rw [hsave]
      cases hplace : files.locate path with
      | error e =>
          rw [saveInPlace_of_fileError hencode hplace, Files.write, hplace]
          rfl
      | ok place =>
          rw [saveInPlace_of_ok hencode hplace, Files.write_eq_ok_iff.2 ⟨place, hplace, rfl⟩]
          rfl

theorem load_of_read {read : Path → Except FileError Bytes} {path : Path} {data : Bytes}
    (hread : read path = .ok data) : load depth read path = (decode depth data).mapError .decoding := by
  rw [load, hread]
  rfl

theorem load_trace {events : List Event} (h : ∀ e ∈ events, e.Recordable)
    {read : Path → Except FileError Bytes} {path : Path} (hread : read path = .ok (trace events)) :
    load depth read path = .ok events := by
  rw [load_of_read hread, decode_trace h]
  rfl

end Keystroke.Trace
