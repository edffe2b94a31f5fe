import Keystroke.Command.ShowTrace
import Keystroke.Proofs.Command
import Keystroke.Proofs.Event.Describe
import Keystroke.Proofs.Replay.Steps
import Keystroke.Proofs.Trace.Depth
import Keystroke.Proofs.Trace.File
import Keystroke.Proofs.Trace.Normal

namespace Keystroke.Command

open Replay

/-- The labels and the level of a command: those of the settings file that is named, or else no labels and the
level once its command line has been read. -/
inductive SettingsGive (read : Path → Except FileError Bytes) : OptionValue Path → Labels → LogLevel → Prop
  | nothing : SettingsGive read .byDefault .empty .info
  | file {path : Path} {s : Settings} (h : Settings.load read path = .ok s) :
      SettingsGive read (.given path) s.labels s.logLevel

theorem SettingsGive.labelsAndLevel {read : Path → Except FileError Bytes} {value : OptionValue Path}
    {labels : Labels} {level : LogLevel} (h : SettingsGive read value labels level) :
    labelsAndLevel read value = .ok (labels, level) := by
  cases h with
  | nothing => rfl
  | file h =>
      rw [Command.labelsAndLevel, h]
      rfl

namespace ShowTrace

def Args.speed? (args : Args) : Option Speed :=
  match args.speed with
  | .byDefault => some .normal
  | .given speed => some (.real speed)
  | .dropped => none

def printable (lines : List Text) : List Text := (lines.takeWhile fun l => l.NoSurrogate).map (· ++ "\n")

def AllPrintable (lines : List Text) : Prop := ∀ l ∈ lines, l.NoSurrogate

instance (lines : List Text) : Decidable (AllPrintable lines) :=
  inferInstanceAs (Decidable (∀ l ∈ lines, _))

theorem printable_take (lines : List Text) (k : Nat) : printable (lines.take k) = (printable lines).take k := by
  rw [printable, printable, ← List.map_take, List.take_takeWhile]

theorem allPrintable_iff (lines : List Text) :
    AllPrintable lines ↔ lines.length ≤ (printable lines).length := by
  induction lines with
  | nil => exact ⟨fun _ => Nat.zero_le _, fun _ => nofun⟩
  | cons l ls ih =>
      rw [AllPrintable, List.forall_mem_cons]
      rw [AllPrintable] at ih
      by_cases hl : l.NoSurrogate <;> simp_all [printable]

theorem allPrintable_take_iff {lines : List Text} {k : Nat} (hk : k ≤ lines.length) :
    AllPrintable (lines.take k) ↔ k ≤ (printable lines).length := by
  rw [allPrintable_iff, printable_take, List.length_take, List.length_take]
  omega

/-- Lines are printed up to the first that cannot be, and behind them comes the given failure. -/
structure Shows (lines : List Text) (failure : Option Failure) (f : Feed Effect Failure) : Prop where
  printed_eq : printed f.items = printable lines
  failure_eq : f.failure = if AllPrintable lines then failure else some .textNotUtf8

section Feeds

variable {lines : List Text} {failure : Option Failure} {f : Feed Effect Failure}

theorem shows_nil : Shows [] failure ⟨[], failure⟩ := ⟨rfl, (if_pos nofun).symm⟩

theorem Shows.printLine (h : Shows lines failure f) (l : Text) :
    Shows (l :: lines) failure (printLine l f) := by
  rw [printLine_eq]
  by_cases hl : l.NoSurrogate
  · have hall : AllPrintable (l :: lines) ↔ AllPrintable lines := by
      rw [AllPrintable, List.forall_mem_cons, and_iff_right hl, AllPrintable]
    rw [if_pos hl]
    refine ⟨?_, ?_⟩
    · have := h.printed_eq
      simp_all [printable, printed, Feed.cons]
    · simp only [hall]
      exact h.failure_eq
  · have hall : ¬ AllPrintable (l :: lines) := fun h => hl (h l List.mem_cons_self)
    rw [if_neg hl]
    exact ⟨by simp [printable, printed, hl], (if_neg hall).symm⟩

theorem Shows.cons_wait (h : Shows lines failure f) (seconds : Binary64) :
    Shows lines failure (f.cons (.wait seconds)) :=
  ⟨h.printed_eq, h.failure_eq⟩

theorem Shows.foldr_logged (h : Shows lines failure f) (level : LogLevel) (r : LogRecord) :
    Shows lines failure ((logged level r).foldr Feed.cons f) := by
  obtain ⟨hp, hf⟩ := printed_foldr_logged level r f
  exact ⟨hp.trans h.printed_eq, hf.trans h.failure_eq⟩

end Feeds

def lineText (labels : Labels) (e : Event) : Text := Numeral.decimal e.time ++ "\t" ++ e.described labels

def AllLined (labels : Labels) (events : List Event) : Prop :=
  ∀ e ∈ events, line labels e = .ok (lineText labels e)

theorem allLined_of_recordable {events : List Event} (h : ∀ e ∈ events, e.Recordable) (labels : Labels) :
    AllLined labels events := by
  intro e he
  have hr := h e he
  rw [line, Numeral.written_of_fewDigits hr.time.fewDigits,
    Event.describe_of_describable ⟨hr.keyCode.fewDigits, hr.rawCode.fewDigits⟩]
  rfl

theorem printEvent_of_line {labels : Labels} {e : Event} {l : Text} (h : line labels e = .ok l)
    (rest : Feed Effect Failure) : printEvent labels e rest = printLine l rest := by
  rw [printEvent, h]

theorem shows_lines {labels : Labels} {events : List Event} (h : AllLined labels events) :
    Shows (events.map (lineText labels)) none (lines labels events) := by
  induction events with
  | nil => exact shows_nil
  | cons e es ih =>
      obtain ⟨he, hes⟩ := List.forall_mem_cons.1 h
      rw [lines, printEvent_of_line he]
      exact (ih hes).printLine _

theorem shows_replayLines {labels : Labels} {speed : Speed} {events : List Event} {steps : List Replay.Step}
    (h : Delivers speed events steps) (hl : AllLined labels events) (error : Option Replay.Error) :
    Shows (events.map (lineText labels)) (error.map .replay) (replayLines labels error steps) := by
  induction h with
  | nil => exact shows_nil
  | single e =>
      rw [replayLines, printEvent_of_line (hl e List.mem_cons_self)]
      exact shows_nil.printLine _
  | cons _ _ ih =>
      obtain ⟨he, hes⟩ := List.forall_mem_cons.1 hl
      rw [replayLines, printEvent_of_line he]
      exact ((ih hes).cons_wait _).printLine _

structure Prints (lines : List Text) (ending : Ending) (r : Report) : Prop where
  printed_eq : printed r.effects = printable lines
  ending_eq : r.ending = if AllPrintable lines then ending else .failed .textNotUtf8

theorem Shows.prints {lines : List Text} {failure : Option Failure} {f : Feed Effect Failure}
    (h : Shows lines failure f) (level : LogLevel) :
    Prints lines ((failure.map .failed).getD .done) (.ofFeed level f) := by
  refine ⟨h.printed_eq, ?_⟩
  have hending : (Report.ofFeed level f).ending = (f.failure.map .failed).getD .done := by
    rw [Report.ofFeed]
    cases f.failure <;> rfl
  rw [hending, h.failure_eq]
  split <;> rfl

section Reports

variable {lines : List Text} {ending : Ending} {r r' : Report}

theorem Prints.eq_of_prints (h : Prints lines ending r) (h' : Prints lines ending r') :
    printed r'.effects = printed r.effects ∧ r'.ending = r.ending :=
  ⟨h'.printed_eq.trans h.printed_eq.symm, h'.ending_eq.trans h.ending_eq.symm⟩

/-- A line that cannot be printed ends both reports, if it is one of the first `k`. -/
theorem Prints.take {k : Nat} (hk : k ≤ lines.length) (h : Prints lines .done r)
    (h' : Prints (lines.take k) ending r') :
    printed r'.effects = (printed r.effects).take k ∧
    r'.ending = if k ≤ (printed r.effects).length then ending else r.ending := by
  rw [h'.printed_eq, h'.ending_eq, h.printed_eq, h.ending_eq, printable_take]
  refine ⟨rfl, ?_⟩
  simp only [allPrintable_take_iff hk]
  split
  · rfl
  · rename_i hlt
    rw [if_neg fun hall => hlt (Nat.le_trans hk ((allPrintable_iff _).1 hall))]

theorem Prints.ending_eq_or (h : Prints lines ending r) :
    r.ending = ending ∨ r.ending = .failed .textNotUtf8 := by
  rw [h.ending_eq]
  split
  · exact .inl rfl
  · exact .inr rfl

end Reports

section Runs

variable {depths : Depths} {read : Path → Except FileError Bytes} {args : Args} {labels : Labels}
  {level : LogLevel} {data : Bytes} {speed : Speed} {events : List Event}

theorem run_of_given {argv : List Text} (h : arguments argv = .given args) :
    run depths read argv = runWith depths read args := by
  rw [run, h]
  rfl

theorem runWith_of_error (args : Args) (hsettings : SettingsGive read args.settings labels level)
    (hdata : read args.trace = .ok data) {e : Trace.DecodeError}
    (h : Trace.decode (depths.of args.replay) data = .error e) :
    runWith depths read args = ⟨[], level, .failed (.trace e)⟩ := by
  have hload : Trace.load (depths.of args.replay) read args.trace = .error (.decoding e) := by
    rw [Trace.load_of_read hdata, h]
    rfl
  simp only [runWith, hsettings.labelsAndLevel, hload, Failure.ofLoad]

theorem runWith_of_ok (args : Args) (hsettings : SettingsGive read args.settings labels level)
    (hdata : read args.trace = .ok data) (h : Trace.decode (depths.of args.replay) data = .ok events) :
    runWith depths read args = .ofFeed level (shown args labels level events) := by
  have hload : Trace.load (depths.of args.replay) read args.trace = .ok events := by
    rw [Trace.load_of_read hdata, h]
    rfl
  simp only [runWith, hsettings.labelsAndLevel, hload]

theorem shows_shown (args : Args) (hplain : args.replay = false) (hl : AllLined labels events) :
    Shows (events.map (lineText labels)) none (shown args labels level events) := by
  rw [shown, hplain]
  exact (shows_lines hl).foldr_logged level _

theorem shows_shown_replay (args : Args) (hreplay : args.replay = true)
    (hspeed : args.speed? = some speed) (hs : speed.positive = true) {delivered : List Event}
    {steps : List Replay.Step} {error : Option Replay.Error} (h : Delivers speed delivered steps)
    (hl : AllLined labels delivered) (hsteps : Replay.steps speed events = ⟨steps, error⟩) :
    Shows (delivered.map (lineText labels)) (error.map .replay) (shown args labels level events) := by
  have hreplayed : replayed args labels events = replayLines labels error steps := by
    -- The speed is above zero, so the check that a replayer makes of it again passes.
    obtain ⟨r, hr⟩ := Replayer.exists_make events hs
    obtain ⟨he, hrs⟩ := Replayer.make_eq_ok_iff.1 hr
    have hat : replayed args labels events = replayedAt speed labels events := by
      rw [Args.speed?] at hspeed
      rw [replayed]
      cases ha : args.speed with
      | dropped => rw [ha] at hspeed; cases hspeed
      | byDefault | given => rw [ha] at hspeed; cases hspeed; rfl
    rw [hat, replayedAt, hr]
    simp only [Replayer.steps, he, hrs, hsteps]
  rw [shown, hreplay, if_pos rfl, hreplayed]
  exact (shows_replayLines h hl error).foldr_logged level _

variable (args : Args) (hsettings : SettingsGive read args.settings labels level)
  (hdata : read args.trace = .ok data) (h : Trace.decode (depths.of args.replay) data = .ok events)

include hsettings hdata h

theorem prints_runWith (hplain : args.replay = false) :
    Prints (events.map (lineText labels)) .done (runWith depths read args) := by
  rw [runWith_of_ok args hsettings hdata h]
  have hl := allLined_of_recordable (Trace.decodeLines_recordable h) labels
  exact (shows_shown args hplain hl).prints level

variable (hreplay : args.replay = true) (hspeed : args.speed? = some speed) (hs : speed.positive = true)

include hreplay hspeed hs

theorem prints_runWith_waitable (hw : Waitable speed events) :
    Prints (events.map (lineText labels)) .done (runWith depths read args) := by
  obtain ⟨steps, hd⟩ := exists_delivers hw
  rw [runWith_of_ok args hsettings hdata h]
  have hl := allLined_of_recordable (Trace.decodeLines_recordable h) labels
  exact (shows_shown_replay args hreplay hspeed hs hd hl (hd.steps_eq hs)).prints level

theorem prints_runWith_failsBefore {k : Nat} {error : Replay.Error}
    (hf : FailsBefore speed events k error) :
    Prints ((events.take k).map (lineText labels)) (.failed (.replay error)) (runWith depths read args) := by
  obtain ⟨steps, hd⟩ := exists_delivers hf.before
  rw [runWith_of_ok args hsettings hdata h]
  have hl : AllLined labels (events.take k) := fun e he =>
    allLined_of_recordable (Trace.decodeLines_recordable h) labels e (List.mem_of_mem_take he)
  exact (shows_shown_replay args hreplay hspeed hs hd hl (hf.steps_eq hd hs)).prints level

theorem failsBefore_of_ending {error : Replay.Error}
    (he : (runWith depths read args).ending = .failed (.replay error)) :
    ∃ k, FailsBefore speed events k error := by
  rcases waitable_or_failsBefore speed events with hw | ⟨k, other, hf⟩
  · have hp := prints_runWith_waitable args hsettings hdata h hreplay hspeed hs hw
    rcases hp.ending_eq_or with hending | hending <;> cases hending.symm.trans he
  · have hp := prints_runWith_failsBefore args hsettings hdata h hreplay hspeed hs hf
    rcases hp.ending_eq_or with hending | hending <;> cases hending.symm.trans he
    exact ⟨k, hf⟩

end Runs

/-- The command with and without a replay, at a speed above zero. Without one it prints for each event its time, a
tab and its description under the labels of the settings file, up to a line that has no form in UTF-8; a bad line
anywhere in the trace fails it before it prints. A replay whose reader runs out of levels fails at that before it
prints. Any other replay fails at the same bad line, or else prints the same and ends the same, unless it comes to
a wait that cannot be computed; then it has printed the lines of the events before. -/
theorem run_replay {depths : Depths} {read : Path → Except FileError Bytes} {plain replay : List Text}
    {args : Args} {labels : Labels} {level : LogLevel} {data : Bytes} {speed : Speed}
    (hplain : arguments plain = .given { args with replay := false })
    (hreplay : arguments replay = .given { args with replay := true })
    (hsettings : SettingsGive read args.settings labels level)
    (hdata : read args.trace = .ok data) (hspeed : args.speed? = some speed)
    (hs : speed.positive = true) :
    (Trace.decode depths.replay data = .error .tooDeep →
      run depths read replay = ⟨[], level, .failed (.trace .tooDeep)⟩) ∧
    (∀ e, Trace.decode depths.plain data = .error e →
      run depths read plain = ⟨[], level, .failed (.trace e)⟩ ∧
      (Trace.decode depths.replay data ≠ .error .tooDeep →
        run depths read replay = ⟨[], level, .failed (.trace e)⟩)) ∧
    ∀ events, Trace.decode depths.plain data = .ok events → ∃ descriptions lines : List Text,
      events.map (·.describe labels) = descriptions.map .ok ∧
      lines = List.zipWith (fun e d => Numeral.decimal e.time ++ "\t" ++ d) events descriptions ∧
      printed (run depths read plain).effects = printable lines ∧
      (run depths read plain).ending = (if AllPrintable lines then .done else .failed .textNotUtf8) ∧
      (Trace.decode depths.replay data ≠ .error .tooDeep →
        (Waitable speed events →
          printed (run depths read replay).effects = printed (run depths read plain).effects ∧
          (run depths read replay).ending = (run depths read plain).ending) ∧
        (∀ k error, FailsBefore speed events k error →
          printed (run depths read replay).effects = (printed (run depths read plain).effects).take k ∧
          (run depths read replay).ending =
            if k ≤ (printed (run depths read plain).effects).length then .failed (.replay error)
            else (run depths read plain).ending) ∧
        ∀ error, (run depths read replay).ending = .failed (.replay error) →
          ∃ k, FailsBefore speed events k error) := by
  have hmono (hd : Trace.decode depths.replay data ≠ .error .tooDeep) :
      Trace.decode depths.plain data = Trace.decode depths.replay data :=
    Trace.decode_of_le depths.replay_le hd
  rw [run_of_given hplain, run_of_given hreplay]
  refine ⟨fun hd => runWith_of_error { args with replay := true } hsettings hdata hd, ?_, ?_⟩
  · intro e h
    refine ⟨runWith_of_error { args with replay := false } hsettings hdata h, fun hd => ?_⟩
    exact runWith_of_error { args with replay := true } hsettings hdata ((hmono hd).symm.trans h)
  · intro events h
    have hr := Trace.decodeLines_recordable h
    have hprints := prints_runWith { args with replay := false } hsettings hdata h rfl
    refine ⟨events.map (·.described labels), events.map (lineText labels), ?_, ?_,
      hprints.printed_eq, hprints.ending_eq, ?_⟩
    · rw [List.map_map]
      refine List.map_congr_left fun e he => Event.describe_of_describable ?_ labels
      exact ⟨(hr e he).keyCode.fewDigits, (hr e he).rawCode.fewDigits⟩
    · rw [List.zipWith_map_right, List.zipWith_self]
      rfl
    intro hd
    have h' : Trace.decode depths.replay data = .ok events := (hmono hd).symm.trans h
    refine ⟨fun hw => ?_, fun k error hf => ?_, fun error => ?_⟩
    · exact hprints.eq_of_prints
        (prints_runWith_waitable { args with replay := true } hsettings hdata h' rfl hspeed hs hw)
    · have hk : k ≤ (events.map (lineText labels)).length := by
        rw [List.length_map]
        exact Nat.le_of_lt hf.lt_length
      have hfailing :=
        prints_runWith_failsBefore { args with replay := true } hsettings hdata h' rfl hspeed hs hf
      rw [List.map_take] at hfailing
      exact hprints.take hk hfailing
    · exact failsBefore_of_ending { args with replay := true } hsettings hdata h' rfl hspeed hs

/-- A member nested deeper than a replay reads, but no deeper than the command without one does. -/
theorem run_between (depths : Depths) {e : Event} {c : CodePoint} {n : Nat} (h : e.Recordable)
    (hc : e.char = [c]) (hplain : n < depths.plain) (hreplay : depths.replay ≤ n) :
    Prints [lineText .empty e] .done (run depths (fun _ => .ok (Trace.deepTrace (n + 1) e c)) ["t"]) ∧
    run depths (fun _ => .ok (Trace.deepTrace (n + 1) e c)) ["--replay", "t"] =
      ⟨[], .info, .failed (.trace .tooDeep)⟩ := by
  constructor
  · have hargs : arguments ["t"] = .given { trace := .ofText "t" } := rfl
    rw [run_of_given hargs]
    exact prints_runWith { trace := .ofText "t" } .nothing rfl (Trace.decode_deepTrace h hc hplain) rfl
  · have hargs : arguments ["--replay", "t"] = .given { trace := .ofText "t", replay := true } := rfl
    rw [run_of_given hargs]
    exact runWith_of_error { trace := .ofText "t", replay := true } .nothing rfl
      (Trace.decode_deepTrace_tooDeep e c (Nat.lt_succ_of_le hreplay))

def pressedA : Event := ⟨2401, 5, 0, 38, 65, "a", 1, none⟩

theorem run_replay_tooDeep :
    printed (run .usual (fun _ => .ok (Trace.deepTrace 987 pressedA (.ofChar 'a'))) ["t"]).effects =
      [("5\tPRESSED,key_code=65,key_text=A,key_char='a',key_location=STANDARD,raw_code=38\n" : Text)] ∧
    run .usual (fun _ => .ok (Trace.deepTrace 987 pressedA (.ofChar 'a'))) ["--replay", "t"] =
      ⟨[], .info, .failed (.trace .tooDeep)⟩ := by
  obtain ⟨⟨hprinted, -⟩, hreplay⟩ := run_between .usual (n := 986)
    (e := pressedA) (by decide +kernel) rfl (by decide +kernel) (by decide +kernel)
  refine ⟨hprinted.trans ?_, hreplay⟩
  decide +kernel

/-- The enter key on a clock that goes back once and then too far ahead for a wait. -/
def returns : List Event :=
  [⟨2401, 5, 1, 28, 10, "\n", 2, none⟩, ⟨2402, 2, 0, 28, 10, "\n", 2, none⟩,
    ⟨2401, 10 ^ 320, 0, 28, 10, "\n", 2, none⟩]

def returnLabels : List (Text × Text) := [("enter", "Return")]

def returnLines : List Text :=
  ["5\tPRESSED,key_code=10,key_text=Return,key_char=Return,modifiers=Shift,key_location=LEFT,raw_code=28\n",
    "2\tRELEASED,key_code=10,key_text=Return,key_char=Return,key_location=LEFT,raw_code=28\n"]

def returnFiles (data : Bytes) (path : Path) : Except FileError Bytes :=
  .ok (if path = .ofText "s.json" then
    Utf8.bytes "\x7b\"labels\":\x7b\"enter\":\"Return\"\x7d\x7d" else data)

/-- With a settings file that gives the key another label. The replay prints the first two lines of the three. -/
theorem run_replay_returns :
    ∃ data third, Trace.encode returns = .ok data ∧
      printed (run .usual (returnFiles data) ["--settings", "s.json", "t"]).effects =
        returnLines ++ [third] ∧
      printed (run .usual (returnFiles data) ["--replay", "--settings", "s.json", "t"]).effects =
        returnLines ∧
      (run .usual (returnFiles data) ["--replay", "--settings", "s.json", "t"]).ending =
        .failed (.replay .gapTooLarge) := by
  have hrecordable : ∀ e ∈ returns, e.Recordable := by decide +kernel
  have hs : Speed.positive .normal = true := by decide
  have hfails : FailsBefore .normal returns 2 .gapTooLarge := by
    refine ⟨?_, 1, _, rfl, rfl, wait_of_tooLarge (by decide +kernel)⟩
    exact waitable_pair (w := .zero) (eq_ok_of_toOption (by decide +kernel))
  have hload : (Settings.load (returnFiles (Trace.trace returns)) (.ofText "s.json")).toOption.map
      (·.labels.entries) = some returnLabels := by
    decide +kernel
  obtain ⟨⟨path, ⟨entries, hdistinct⟩, level⟩, hload, hentries⟩ := Option.map_eq_some_iff.1 hload
  have hentries : entries = returnLabels := hentries
  subst hentries
  have hsettings : SettingsGive (returnFiles (Trace.trace returns)) (.given (.ofText "s.json"))
      (.ofList returnLabels) level := .file (eq_ok_of_toOption hload)
  obtain ⟨-, -, h⟩ := @run_replay .usual (returnFiles (Trace.trace returns)) ["--settings", "s.json", "t"]
    ["--replay", "--settings", "s.json", "t"] { trace := .ofText "t", settings := .given (.ofText "s.json") }
    _ _ _ _ rfl rfl hsettings rfl rfl hs
  obtain ⟨descriptions, lines, hdescriptions, hlines, hprinted, -, hreplay⟩ :=
    h returns (Trace.decode_trace hrecordable)
  have hshallow : Trace.decode Depths.usual.replay (Trace.trace returns) ≠ .error .tooDeep := by
    rw [Trace.decode_trace hrecordable]
    exact nofun
  obtain ⟨hfirst, hending⟩ := (hreplay hshallow).2.1 2 _ hfails
  have hdescribed : returns.map (·.describe (.ofList returnLabels)) =
      (returns.map (·.described (.ofList returnLabels))).map .ok :=
    rfl
  have hd : descriptions = returns.map (·.described (.ofList returnLabels)) :=
    (List.map_inj_right fun _ _ => Except.ok.inj).1 (hdescriptions.symm.trans hdescribed)
  obtain ⟨third, hthird⟩ : ∃ third, printable lines = returnLines ++ [third] := by
    rw [hlines, hd]
    exact ⟨(printable (returns.map (lineText (.ofList returnLabels)))).getLastD "", by decide +kernel⟩
  refine ⟨_, third, Trace.encode_eq_ok_iff.2 ⟨fun e he => (hrecordable e he).toEncodable, rfl⟩, ?_, ?_, ?_⟩
  · rw [hprinted, hthird]
  · rw [hfirst, hprinted, hthird]
    rfl
  · rw [hending, hprinted, hthird]
    rfl

end ShowTrace

end Keystroke.Command
