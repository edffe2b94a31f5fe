import Keystroke.Proofs.Recorder
import Keystroke.Proofs.Replay.Steps
import Keystroke.Proofs.Trace.File

namespace Keystroke

open Replay

def Replayer.stream (r : Replayer) : Feed Event Replay.Error :=
  ⟨r.steps.items.filterMap Step.event?, r.steps.failure⟩

theorem Replayer.stream_eq {r : Replayer} (hs : r.speed.positive = true)
    (hw : Waitable r.speed r.events) : r.stream = ⟨r.events, none⟩ := by
  obtain ⟨done, hd⟩ := exists_delivers hw
  rw [stream, Replayer.steps, hd.steps_eq hs, hd.paced.events_eq]

/-- A recorder whose consumer stops after `n` events has kept these. Wherever a file can be, they are saved,
and a replay of the file delivers them, at any speed above zero at which its waits can be computed. What a second
recorder keeps of the replay is saved as the same bytes. -/
theorem Replayer.stream_recording {ε : Type} {source : Feed Event ε}
    (hsource : ∀ e ∈ source.items, e.Recordable) (n : Nat) {speed : Speed}
    (hs : speed.positive = true) (hw : Waitable speed (source.items.take n)) {path place : Path}
    {files : Files} (hplace : files.locate path = .ok place) :
    ∃ saved loaded replayer,
      (Recorder.consume (some n) { pending := source }).1.items = source.items.take n ∧
      Trace.save (Recorder.consume (some n) { pending := source }).2.recorded path files = .ok saved ∧
      (∀ depth, Trace.load depth saved.read path = .ok loaded) ∧
      Replayer.make loaded speed = .ok replayer ∧
      replayer.stream = ⟨source.items.take n, none⟩ ∧
      ∀ again place', saved.locate again = .ok place' → ∃ savedAgain data,
        Trace.save (Recorder.consume none { pending := replayer.stream }).2.recorded again saved =
          .ok savedAgain ∧
        saved.read path = .ok data ∧ savedAgain.read again = .ok data := by
  have htaken : ∀ e ∈ source.items.take n, e.Recordable := fun e he => hsource e (List.mem_of_mem_take he)
  have hencodable : ∀ e ∈ source.items.take n, e.Encodable := fun e he => (htaken e he).toEncodable
  obtain ⟨saved, hsave, hread⟩ := Trace.exists_save hencodable hplace
  obtain ⟨replayer, hmake⟩ := Replayer.exists_make (source.items.take n) hs
  obtain ⟨hevents, rfl⟩ := Replayer.make_eq_ok_iff.1 hmake
  have hstream : replayer.stream = ⟨source.items.take n, none⟩ := by
    rw [← hevents] at hw ⊢
    exact Replayer.stream_eq hs hw
  obtain ⟨hseen, hrecorded⟩ := Recorder.consume_some n source
  refine ⟨saved, source.items.take n, replayer, hseen, ?_, fun _ => Trace.load_trace htaken hread,
    hmake, hstream, ?_⟩
  · rw [hrecorded, hsave]
  · intro again place' hagain
    obtain ⟨savedAgain, hsaveAgain, hreadAgain⟩ := Trace.exists_save hencodable hagain
    refine ⟨savedAgain, Trace.trace (source.items.take n), ?_, hread, hreadAgain⟩
    rw [hstream, Recorder.consume_none, hsaveAgain]

/-- A press and a typed character that come at once, before the source fails. -/
def failingSource : Feed Event Unit :=
  ⟨[⟨2401, 30, 0, 35, 72, "H", 1, some "é"⟩, ⟨2400, 30, 1, 0, 0, [⟨0xDBFF, by decide⟩], 0, none⟩], some ()⟩

theorem Replayer.stream_recording_failingSource :
    ∃ saved loaded replayer,
      Trace.save (Recorder.consume (some 2) { pending := failingSource }).2.recorded (.ofText "t") .empty =
        .ok saved ∧
      Trace.load Trace.usualDepth saved.read (.ofText "t") = .ok loaded ∧
      Replayer.make loaded (.whole 3) = .ok replayer ∧ replayer.stream = ⟨failingSource.items, none⟩ := by
  have hsource : ∀ e ∈ failingSource.items, e.Recordable := by decide
  have hs : Speed.positive (.whole 3) = true := rfl
  have hw : Waitable (.whole 3) (failingSource.items.take 2) :=
    waitable_pair (w := .zero) (eq_ok_of_toOption (by decide +kernel))
  have hplace : Files.empty.locate (.ofText "t") = .ok (.ofText "t") := rfl
  obtain ⟨saved, loaded, replayer, -, hsave, hload, hmake, hstream, -⟩ :=
    stream_recording hsource 2 hs hw hplace
  exact ⟨saved, loaded, replayer, hsave, hload _, hmake, hstream⟩

end Keystroke
