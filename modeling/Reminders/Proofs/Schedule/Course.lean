import Mathlib.Data.List.Basic
import Reminders.Pipeline.Worker
import Reminders.Proofs.Schedule.Log
import Reminders.Rehearsal.Schedule

/-!
# The course of a scheduler

Commands are sent to a scheduler, shutdown is called, runs end; in between the scheduler looks for
something to do (`Course.Event`).  What it did is kept in its log, which accounts for everything
that the scheduler knows: its commands, its ticker and its record (`Course.Orderly`).  The workers
of the daemon, and rehearsals, take their schedulers along such courses (`Worker.step_course`,
`ScheduleRehearsal.turn_course`).
-/

namespace Reminders

/-! ## Looking for something to do -/

namespace Scheduler

/-- What a scheduler that waits may find to do. -/
inductive Cue where
  | stop
  | obey (command : Command)
  | tick

/-- Shutdown comes before commands, and commands come before ticks. -/
def cue? (shutdown : Bool) (now : Nat) (s : Scheduler) : Option Cue :=
  if shutdown then some .stop
  else match s.commands with
    | command :: _ => some (.obey command)
    | [] => if s.ticker.isDue now then some .tick else none

/-- The scheduler with a run in progress. -/
def begun (s : Scheduler) : Scheduler := { s with phase := .running }

/-- The scheduler after it did what it found. -/
def follow (now : Nat) (s : Scheduler) : Cue → Scheduler
  | .stop => { s with phase := .ended (.ok ()) }
  | .obey .trigger => { s with commands := s.commands.tail }.begun
  | .obey .pause => { s with commands := s.commands.tail }.setPaused true
  | .obey .resume => { s with commands := s.commands.tail }.setPaused false
  | .tick =>
    let s := { s with ticker := s.ticker.take now }
    if s.record.paused then s else s.begun

variable {s : Scheduler} {shutdown : Bool} {now : Nat}

theorem next_eq (shutdown : Bool) (now : Nat) (s : Scheduler) : s.next shutdown now =
    match s.cue? shutdown now with
    | some cue => (true, s.follow now cue)
    | none => (false, s) := by
  obtain ⟨job, limit, ticker, record, commands, phase⟩ := s
  cases shutdown with
  | true => rfl
  | false =>
      cases commands with
      | cons command commands => cases command <;> rfl
      | nil =>
          cases hdue : ticker.isDue now <;> simp [next, cue?, follow, begun, hdue]

theorem follow_tick (now : Nat) (s : Scheduler) :
    (s.follow now .tick).commands = s.commands ∧ (s.follow now .tick).record = s.record ∧
      (s.follow now .tick).ticker = s.ticker.take now := by
  cases hpaused : s.record.paused <;> simp [follow, begun, hpaused]

/-- A command that is sent changes the commands at most. -/
theorem send_frame (command : Command) (s : Scheduler) :
    (s.send command).2.phase = s.phase ∧ (s.send command).2.record = s.record ∧
      (s.send command).2.ticker = s.ticker := by
  rw [send]
  split
  · exact ⟨rfl, rfl, rfl⟩
  · split <;> exact ⟨rfl, rfl, rfl⟩

def isWaiting (s : Scheduler) : Bool := s.phase matches .waiting

def isRunning (s : Scheduler) : Bool := s.phase matches .running

theorem isRunning_of_isWaiting (h : s.isWaiting = true) : s.isRunning = false := by
  rw [isWaiting] at h
  rw [isRunning]
  cases hphase : s.phase with
  | waiting => rfl
  | running | ended => simp [hphase] at h

theorem isWaiting_of_isRunning (h : s.isRunning = true) : s.isWaiting = false := by
  refine Bool.eq_false_iff.mpr fun hwaiting => ?_
  rw [isRunning_of_isWaiting hwaiting] at h
  cases h

theorem isRunning_finish (result : Except PipelineError Unit) (now : Instant) (s : Scheduler) :
    (s.finish result now).isRunning = false := by
  cases result with
  | ok => rfl
  | error e =>
      rw [finish, isRunning]
      cases s.limit with
      | none => rfl
      | some limit =>
          dsimp only
          split_ifs <;> rfl

end Scheduler

/-- What a scheduler does when it follows a cue. -/
def Deed.ofCue (now : Nat) : Scheduler.Cue → Deed
  | .stop => stopped
  | .obey command => obeyed command
  | .tick => ticked now

/-! ## Events -/

/-- A scheduler with the commands it accepted and its log. -/
structure Course where
  scheduler : Scheduler
  shutdown : Bool := false
  /-- The commands that were accepted, the oldest first. -/
  sent : List Command := []
  /-- What the scheduler did, the last deed first. -/
  log : List Deed := []

namespace Course

/-- What can happen. -/
inductive Event where
  | send (command : Command)
  | shutDown
  /-- The scheduler looks for something to do, if it waits. -/
  | look (now : Nat)
  /-- The run in progress ends, if there is one. -/
  | finish (result : Except PipelineError Unit) (now : Instant)

/-- A run begins when the scheduler comes to be running. -/
def look (c : Course) (now : Nat) : Course :=
  let s := (c.scheduler.next c.shutdown now).2
  let cues := (c.scheduler.cue? c.shutdown now).toList.map (Deed.ofCue now)
  { c with
    scheduler := s
    log := (if s.isRunning then [.began] else []) ++ (cues ++ c.log) }

def after (c : Course) : Event → Course
  | .send command =>
    { c with
      scheduler := (c.scheduler.send command).2
      sent := if (c.scheduler.send command).1 matches .sent then c.sent ++ [command] else c.sent }
  | .shutDown => { c with shutdown := true }
  | .look now => if c.scheduler.isWaiting then c.look now else c
  | .finish result now =>
    if c.scheduler.isRunning then
      { c with scheduler := c.scheduler.finish result now, log := .ended result now :: c.log }
    else c

def run (c : Course) (events : List Event) : Course := events.foldl after c

/-- A scheduler that was just started. -/
def start (job : String) (limit : Option Nat) (ticker : Ticker) : Course where
  scheduler := { job, limit, ticker }

/-- The log accounts for what the scheduler knows, and for each of its runs, of which the record
tells. -/
structure Orderly (t : Ticker) (c : Course) : Prop where
  commands : c.sent = (c.log.filterMap Deed.command?).reverse ++ c.scheduler.commands
  starts : c.log.countP Deed.isStart = Deed.calls c.log
  apart : c.log.countP Deed.isStart =
    c.log.countP Deed.isEnd + if c.scheduler.isRunning then 1 else 0
  record : c.scheduler.record.Tells c.log
  ticker : c.scheduler.ticker = Deed.ticker t c.log
  onTime : Deed.onTime t c.log = true

variable {c : Course} {t : Ticker}

theorem orderly_start (job : String) (limit : Option Nat) (t : Ticker) :
    (start job limit t).Orderly t :=
  ⟨rfl, rfl, rfl, RunRecord.tells_nil, rfl, rfl⟩

/-- A command that is accepted comes last. -/
theorem Orderly.send (h : c.Orderly t) (command : Command) :
    (c.after (.send command)).Orderly t := by
  obtain ⟨hphase, hsame, hticker⟩ := c.scheduler.send_frame command
  have hrecord : (c.scheduler.send command).2.record.Tells c.log := by
    rw [hsame]
    exact h.record
  have hsent : (c.after (.send command)).sent = (c.log.filterMap Deed.command?).reverse ++
      (c.scheduler.send command).2.commands := by
    rw [after, Scheduler.send]
    split
    · exact h.commands
    · split
      · exact (congrArg (· ++ [command]) h.commands).trans (List.append_assoc _ _ _)
      · exact h.commands
  refine ⟨hsent, h.starts, ?_, hrecord, hticker.trans h.ticker, h.onTime⟩
  rw [after, Scheduler.isRunning, hphase]
  exact h.apart

/-- The end of a run is entered into the record. -/
theorem Orderly.finish (h : c.Orderly t) (hrunning : c.scheduler.isRunning = true)
    (result : Except PipelineError Unit) (now : Instant) :
    Orderly t { c with
      scheduler := c.scheduler.finish result now, log := .ended result now :: c.log } := by
  have hrecord : (c.scheduler.finish result now).record.Tells (.ended result now :: c.log) := by
    cases result with
    | ok => exact h.record.success now
    | error e => exact h.record.failure now e
  have hframe : (c.scheduler.finish result now).commands = c.scheduler.commands ∧
      (c.scheduler.finish result now).ticker = c.scheduler.ticker := by
    cases result <;> exact ⟨rfl, rfl⟩
  have hapart := h.apart
  rw [if_pos hrunning] at hapart
  refine ⟨?_, h.starts, ?_, hrecord, hframe.2.trans h.ticker, h.onTime⟩
  · rw [hframe.1]
    exact h.commands
  · rw [Scheduler.isRunning_finish, List.countP_cons_of_neg Bool.false_ne_true,
      List.countP_cons_of_pos rfl]
    exact hapart

theorem look_of_cue {now : Nat} {cue : Scheduler.Cue}
    (hcue : c.scheduler.cue? c.shutdown now = some cue) : c.look now =
      { c with
        scheduler := c.scheduler.follow now cue
        log := (if (c.scheduler.follow now cue).isRunning then [.began] else []) ++
          (.ofCue now cue :: c.log) } := by
  rw [look, Scheduler.next_eq, hcue]
  rfl

theorem look_of_none {now : Nat} (hcue : c.scheduler.cue? c.shutdown now = none)
    (hidle : c.scheduler.isRunning = false) : c.look now = c := by
  rw [look, Scheduler.next_eq, hcue]
  simp [hidle]

/-- At shutdown a scheduler stops. -/
theorem look_of_shutdown (hshutdown : c.shutdown = true) (now : Nat) : c.look now =
    { c with
      scheduler := { c.scheduler with phase := .ended (.ok ()) }, log := .stopped :: c.log } := by
  have hcue : c.scheduler.cue? c.shutdown now = some .stop := by
    rw [Scheduler.cue?, if_pos hshutdown]
  rw [look_of_cue hcue]
  rfl

theorem isRunning_obey (hidle : c.scheduler.isRunning = false) (now : Nat) (command : Command) :
    (c.scheduler.follow now (.obey command)).isRunning = decide (command = .trigger) := by
  cases command with
  | trigger => rfl
  | pause => exact hidle
  | resume => exact hidle

/-- A scheduler obeys the oldest command; a command to run begins a run. -/
theorem look_of_command (hidle : c.scheduler.isRunning = false) (hshutdown : c.shutdown = false)
    {command : Command} {rest : List Command} (hcommands : c.scheduler.commands = command :: rest)
    (now : Nat) : c.look now =
      { c with
        scheduler := c.scheduler.follow now (.obey command)
        log := (if command = .trigger then [.began] else []) ++ (.obeyed command :: c.log) } := by
  have hcue : c.scheduler.cue? c.shutdown now = some (.obey command) := by
    simp [Scheduler.cue?, hshutdown, hcommands]
  rw [look_of_cue hcue, isRunning_obey hidle]
  simp only [decide_eq_true_eq, Deed.ofCue]

theorem Orderly.isRunning_tick (h : c.Orderly t) (hidle : c.scheduler.isRunning = false)
    (now : Nat) : (c.scheduler.follow now .tick).isRunning = ! Deed.paused c.log := by
  rw [Scheduler.follow, Scheduler.isRunning, ← h.record.paused]
  cases c.scheduler.record.paused with
  | true =>
      rw [if_pos rfl]
      exact hidle
  | false =>
      rw [if_neg Bool.false_ne_true]
      rfl

/-- A scheduler takes a tick that is due, which begins a run unless the scheduler is paused. -/
theorem Orderly.look_of_tick (h : c.Orderly t) (hidle : c.scheduler.isRunning = false)
    (hshutdown : c.shutdown = false) (hcommands : c.scheduler.commands = []) {now : Nat}
    (hdue : c.scheduler.ticker.isDue now = true) : c.look now =
      { c with
        scheduler := c.scheduler.follow now .tick
        log := (if Deed.paused c.log then [] else [.began]) ++ (.ticked now :: c.log) } := by
  have hcue : c.scheduler.cue? c.shutdown now = some .tick := by
    simp [Scheduler.cue?, hshutdown, hcommands, hdue]
  rw [look_of_cue hcue, h.isRunning_tick hidle]
  cases Deed.paused c.log <;> rfl

theorem look_of_rest (hidle : c.scheduler.isRunning = false) (hshutdown : c.shutdown = false)
    (hcommands : c.scheduler.commands = []) {now : Nat}
    (hdue : c.scheduler.ticker.isDue now = false) : c.look now = c :=
  look_of_none (by simp [Scheduler.cue?, hshutdown, hcommands, hdue]) hidle

theorem Orderly.apart_of_idle (h : c.Orderly t) (hidle : c.scheduler.isRunning = false) :
    c.log.countP Deed.isStart = c.log.countP Deed.isEnd := by
  simpa [hidle] using h.apart

/-- A scheduler that obeys a command keeps its log in order. -/
theorem Orderly.obey (h : c.Orderly t) (hidle : c.scheduler.isRunning = false)
    (hshutdown : c.shutdown = false) {command : Command} {rest : List Command}
    (hcommands : c.scheduler.commands = command :: rest) (now : Nat) :
    (c.look now).Orderly t := by
  have hapart := h.apart_of_idle hidle
  have hsent : c.sent = ((Deed.obeyed command :: c.log).filterMap Deed.command?).reverse ++
      c.scheduler.commands.tail := by
    rw [h.commands, hcommands, List.filterMap_cons]
    simp [Deed.command?]
  rw [look_of_command hidle hshutdown hcommands]
  cases command with
  | trigger =>
      refine ⟨hsent, ?_, ?_, (h.record.skip rfl).skip rfl, h.ticker, h.onTime⟩
      · exact (Deed.countP_isStart_began _).trans (congrArg (· + 1) h.starts)
      · exact (Deed.countP_isStart_began _).trans (congrArg (· + 1) hapart)
  | pause =>
      refine ⟨hsent, h.starts, ?_, h.record.pause, h.ticker, h.onTime⟩
      rw [isRunning_obey hidle]
      exact hapart
  | resume =>
      refine ⟨hsent, h.starts, ?_, h.record.resume, h.ticker, h.onTime⟩
      rw [isRunning_obey hidle]
      exact hapart

/-- A scheduler that takes a tick keeps its log in order. -/
theorem Orderly.tick (h : c.Orderly t) (hidle : c.scheduler.isRunning = false)
    (hshutdown : c.shutdown = false) (hcommands : c.scheduler.commands = []) {now : Nat}
    (hdue : c.scheduler.ticker.isDue now = true) : (c.look now).Orderly t := by
  have hapart := h.apart_of_idle hidle
  have honTime : ((Deed.ticker t c.log).isDue now && Deed.onTime t c.log) = true := by
    rw [← h.ticker, hdue, h.onTime]
    rfl
  have hcalls : Deed.calls (.ticked now :: c.log) =
      Deed.calls c.log + if Deed.paused c.log then 0 else 1 := rfl
  have hrunning := h.isRunning_tick hidle now
  obtain ⟨hcommands', hsame, hticker⟩ := c.scheduler.follow_tick now
  have hsent := h.commands.trans (congrArg (_ ++ ·) hcommands'.symm)
  have hrecord : (c.scheduler.follow now .tick).record.Tells (.ticked now :: c.log) := by
    rw [hsame]
    exact h.record.skip rfl
  rw [h.ticker] at hticker
  rw [h.look_of_tick hidle hshutdown hcommands hdue]
  generalize c.scheduler.follow now .tick = s at hrunning hsent hrecord hticker ⊢
  cases hpaused : Deed.paused c.log with
  | true =>
      rw [hpaused] at hrunning hcalls
      refine ⟨hsent, h.starts.trans hcalls.symm, ?_, hrecord, hticker, honTime⟩
      rw [hrunning]
      exact hapart
  | false =>
      rw [hpaused] at hrunning hcalls
      refine ⟨hsent, ?_, ?_, hrecord.skip rfl, hticker, honTime⟩
      · exact (Deed.countP_isStart_began _).trans ((congrArg (· + 1) h.starts).trans hcalls.symm)
      · rw [hrunning]
        exact (Deed.countP_isStart_began _).trans (congrArg (· + 1) hapart)

theorem Orderly.look (h : c.Orderly t) (hidle : c.scheduler.isRunning = false) (now : Nat) :
    (c.look now).Orderly t := by
  cases hshutdown : c.shutdown with
  | true =>
      rw [look_of_shutdown hshutdown]
      exact ⟨h.commands, h.starts, h.apart_of_idle hidle, h.record.skip rfl, h.ticker, h.onTime⟩
  | false =>
      cases hcommands : c.scheduler.commands with
      | cons command rest => exact h.obey hidle hshutdown hcommands now
      | nil =>
          cases hdue : c.scheduler.ticker.isDue now with
          | true => exact h.tick hidle hshutdown hcommands hdue
          | false =>
              rw [look_of_rest hidle hshutdown hcommands hdue]
              exact h

theorem Orderly.after (h : c.Orderly t) (e : Event) : (c.after e).Orderly t := by
  cases e with
  | send command => exact h.send command
  | shutDown => exact ⟨h.commands, h.starts, h.apart, h.record, h.ticker, h.onTime⟩
  | look now =>
      rw [Course.after]
      split_ifs with hwaiting
      · exact h.look (Scheduler.isRunning_of_isWaiting hwaiting) now
      · exact h
  | finish result now =>
      rw [Course.after]
      split_ifs with hrunning
      · exact h.finish hrunning result now
      · exact h

theorem Orderly.run (h : c.Orderly t) (events : List Event) : (c.run events).Orderly t := by
  induction events generalizing c with
  | nil => exact h
  | cons e events ih => exact ih (h.after e)

end Course

/-! ## Who drives a scheduler -/

/-- How a scheduler gets on by itself: it rests, or looks for something to do, or its run ends. -/
inductive Scheduler.Moves (shutdown : Bool) (clock : Clock) (s : Scheduler) : Scheduler → Prop where
  | rest : Moves shutdown clock s s
  | look (hwaiting : s.isWaiting = true) : Moves shutdown clock s (s.next shutdown clock.elapsed).2
  | finish (hrunning : s.isRunning = true) (result : Except PipelineError Unit) :
      Moves shutdown clock s (s.finish result clock.now)

/-- Such moves are events of a course. -/
theorem Course.exists_run_of_moves {c : Course} {clock : Clock} {s' : Scheduler}
    (h : c.scheduler.Moves c.shutdown clock s') : ∃ events, (c.run events).scheduler = s' ∧
      (c.run events).sent = c.sent ∧ (c.run events).shutdown = c.shutdown := by
  cases h with
  | rest => exact ⟨[], rfl, rfl, rfl⟩
  | look hwaiting =>
      refine ⟨[.look clock.elapsed], ?_⟩
      rw [Course.run, List.foldl_cons, List.foldl_nil, Course.after, if_pos hwaiting]
      exact ⟨rfl, rfl, rfl⟩
  | finish hrunning result =>
      refine ⟨[.finish result clock.now], ?_⟩
      rw [Course.run, List.foldl_cons, List.foldl_nil, Course.after, if_pos hrunning]
      exact ⟨rfl, rfl, rfl⟩

namespace ScheduleRehearsal

variable {r : ScheduleRehearsal} {s : Scheduler}

/-- A run goes on, or it ends while the clock stands still. -/
theorem continueRun_cases (run : PlannedRun) (wake : Nat) (r : ScheduleRehearsal) :
    continueRun run wake r = (none, r) ∨
      ∃ result r', continueRun run wake r = (some result, r') ∧ r'.clock = r.clock := by
  rw [continueRun]
  split_ifs
  · exact Or.inr ⟨_, _, rfl, rfl⟩
  · exact Or.inr ⟨_, _, rfl, rfl⟩
  · exact Or.inl rfl

/-- A turn of a rehearsal is a move of its scheduler. -/
theorem turn_moves (hs : r.scheduler = some s) : ∃ s', r.turn.2.scheduler = some s' ∧
    s.Moves r.shutdown r.clock s' := by
  cases hphase : s.phase with
  | ended result => exact ⟨s, by simp [turn, hs, hphase], .rest⟩
  | waiting =>
      exact ⟨_, by simp [turn, hs, hphase], .look (by simp [Scheduler.isWaiting, hphase])⟩
  | running =>
      have hrunning : s.isRunning = true := by simp [Scheduler.isRunning, hphase]
      cases hcurrent : r.current with
      | none => exact ⟨s, by simp [turn, hs, hphase, hcurrent, begin], .rest⟩
      | some current =>
          obtain ⟨run, wake⟩ := current
          rcases continueRun_cases run wake r with hrun | ⟨result, r', hrun, hclock⟩
          · exact ⟨s, by simp [turn, hs, hphase, hcurrent, hrun], .rest⟩
          · refine ⟨_, ?_, .finish hrunning result⟩
            simp [turn, hs, hphase, hcurrent, hrun, hclock]

/-- A turn of a rehearsal takes its scheduler along its course. -/
theorem turn_course {c : Course} (hs : r.scheduler = some c.scheduler)
    (hshutdown : r.shutdown = c.shutdown) :
    ∃ events, r.turn.2.scheduler = some (c.run events).scheduler ∧
      (c.run events).sent = c.sent ∧ (c.run events).shutdown = c.shutdown := by
  obtain ⟨s', hturn, hmoves⟩ := turn_moves hs
  rw [hshutdown] at hmoves
  obtain ⟨events, rfl, hrest⟩ := Course.exists_run_of_moves hmoves
  exact ⟨events, hturn, hrest⟩

end ScheduleRehearsal

namespace Worker

/-- The scheduler of a worker that has one. -/
def scheduler? : Worker → Option Scheduler
  | notifier s _ _ => some s
  | housekeeping s _ => some s
  | sender _ | broken => none

variable {σ : Type} [EventStore σ]

theorem stepNotifier_moves (shutdown : Bool) (s : Scheduler) (n : Notifier)
    (pass : Option NotifierPass) (p : Workplace σ) :
    ∃ s', (stepNotifier shutdown s n pass p).2.1.scheduler? = some s' ∧
      s.Moves shutdown p.clock s' := by
  cases hphase : s.phase with
  | ended result => exact ⟨s, by simp [stepNotifier, hphase, scheduler?], .rest⟩
  | waiting =>
      refine ⟨_, ?_, .look (by simp [Scheduler.isWaiting, hphase])⟩
      simp [stepNotifier, hphase, scheduler?]
  | running =>
      have hrunning : s.isRunning = true := by simp [Scheduler.isRunning, hphase]
      cases pass with
      | none =>
          cases hbegin : (n.begin p.clock.now p.calendar.store).1 with
          | ok pass => exact ⟨s, by simp [stepNotifier, hphase, hbegin, scheduler?], .rest⟩
          | error e =>
              refine ⟨_, ?_, .finish hrunning (.error e)⟩
              simp [stepNotifier, hphase, hbegin, scheduler?]
      | some pass =>
          cases hstep : pass.step? shutdown p.clock.now p.users p.calendar.store n.connection
              p.link with
          | some out => exact ⟨s, by simp [stepNotifier, hphase, hstep, scheduler?], .rest⟩
          | none =>
              refine ⟨_, ?_, .finish hrunning (.ok ())⟩
              simp [stepNotifier, hphase, hstep, scheduler?]

theorem stepHousekeeping_moves (shutdown : Bool) (s : Scheduler) (job : Housekeeping)
    (p : Workplace σ) : ∃ s', (stepHousekeeping shutdown s job p).2.1.scheduler? = some s' ∧
      s.Moves shutdown p.clock s' := by
  cases hphase : s.phase with
  | ended result => exact ⟨s, by simp [stepHousekeeping, hphase, scheduler?], .rest⟩
  | waiting =>
      refine ⟨_, ?_, .look (by simp [Scheduler.isWaiting, hphase])⟩
      simp [stepHousekeeping, hphase, scheduler?]
  | running =>
      refine ⟨_, ?_, .finish (by simp [Scheduler.isRunning, hphase])
        (job.run p.clock.now p.calendar).1⟩
      simp [stepHousekeeping, hphase, scheduler?]

/-- A step of a worker is a move of its scheduler. -/
theorem step_moves {w : Worker} {s : Scheduler} (hs : w.scheduler? = some s) (shutdown : Bool)
    (p : Workplace σ) :
    ∃ s', (w.step shutdown p).2.1.scheduler? = some s' ∧ s.Moves shutdown p.clock s' := by
  cases w with
  | notifier s' n pass =>
      obtain rfl : s' = s := Option.some.inj hs
      exact stepNotifier_moves shutdown s' n pass p
  | housekeeping s' job =>
      obtain rfl : s' = s := Option.some.inj hs
      exact stepHousekeeping_moves shutdown s' job p
  | sender | broken => cases hs

/-- A step of a worker takes its scheduler along its course. -/
theorem step_course {w : Worker} {c : Course} (hs : w.scheduler? = some c.scheduler)
    (p : Workplace σ) :
    ∃ events, (w.step c.shutdown p).2.1.scheduler? = some (c.run events).scheduler ∧
      (c.run events).sent = c.sent ∧ (c.run events).shutdown = c.shutdown := by
  obtain ⟨s', hstep, hmoves⟩ := step_moves hs c.shutdown p
  obtain ⟨events, rfl, hrest⟩ := Course.exists_run_of_moves hmoves
  exact ⟨events, hstep, hrest⟩

end Worker

end Reminders
