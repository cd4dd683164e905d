import Mathlib
import ReadPool.Proofs.Moments

/-!
# Errors of closes

Two runs with the same calls, the same answers of the openers and everything in the same order, in
which any of the closes end differently: well in one, with an error in the other, or with another
error. They meet the same systems, give the same answers and make the same history. Only the log
tells them apart, and only where a close ends (`close_errors_only_logged`).
-/

namespace ReadPool

/-- The acts are the same, but for the error that a close ends with. -/
inductive Act.Alike : Act σ → Act σ → Prop where
  | same (a : Act σ) : Alike a a
  | closed (t : ThreadId) (error error' : Option IoError) :
      Alike (.closed t error) (.closed t error')

/-- A close that ends, and how. -/
structure CloseEnd where
  raw : RawId
  identity : Identity
  entry : Entry
  cause : CloseCause
  error : Option IoError
deriving DecidableEq

/-- What the end of a close is logged as. A close that fails is one warning, which has the error. A
close that does not is one event for debugging, and nothing if the raw handle had lost a race. -/
structure CloseEnd.Logged (c : CloseEnd) (log : List LogEvent) : Prop where
  length : log.length = if c.error = none ∧ c.cause = .lostRace then 0 else 1
  level : ∀ ev ∈ log, ev.level = if c.error.isSome then .warn else .debug
  subject : ∀ ev ∈ log, ev.identity = c.identity ∧ ev.entry? = some c.entry
  detail : ∀ ev ∈ log, ev.detail = (c.error.map fun e => ("error", e.display)).toList

namespace Moment

/-- The close that ends at the moment. -/
def closeEnd? (m : Moment σ) : Option CloseEnd :=
  match m.act, m.frames with
  | .closed _ error, .closing raw X entry cause :: _ => some ⟨raw, X, entry, cause, error⟩
  | _, _ => none

/-- Two moments that only a log can tell apart, and that only where a close ends. -/
structure AlikeButLog (m m' : Moment σ) : Prop where
  act : m.act.Alike m'.act
  system : m'.system = m.system
  answer? : m'.answer? = m.answer?
  events : m'.events = m.events
  log : m.closeEnd? = none →
    m'.closeEnd? = none ∧ m'.log = m.log ∧ ∀ ev ∈ m.log, ev.level = .debug
  ended : ∀ c, m.closeEnd? = some c → ∃ error, m'.closeEnd? = some { c with error } ∧
    c.Logged m.log ∧ CloseEnd.Logged { c with error } m'.log

end Moment

/-! ## What is logged -/

namespace World

variable {w : World σ} {frames : List Frame} {turn : Turn σ}

theorem logged_closeReport (c : CloseEnd) :
    c.Logged (closeReport c.identity c.entry c.cause c.error) := by
  obtain ⟨raw, X, entry, cause, error⟩ := c
  cases cause <;> cases error <;>
    constructor <;> simp [closeReport, LogEvent.level, LogEvent.identity, LogEvent.entry?,
      LogEvent.detail]

/-- No action of a pool gives a warning. -/
theorem level_of_mem_log_step (h : w.step frames = some turn) :
    ∀ ev ∈ turn.log, ev.level = .debug := by
  cases yields_step h with
  | closed => cases h
  | _ => simp [finish, LogEvent.level]

/-- A failed open is no warning either: its caller is told. -/
theorem level_of_mem_log_opened {result : Except IoError σ}
    (h : w.opened frames result = some turn) : ∀ ev ∈ turn.log, ev.level = .debug := by
  cases yields_opened h with
  | closed => cases h
  | _ => simp [finish, LogEvent.level]

/-- Nothing is logged of an opener that goes. -/
theorem log_retired (h : w.retired frames = some turn) : turn.log = [] := by
  unfold retired at h
  split at h <;> cases h
  rfl

/-- Only a close that is at work can end. -/
theorem closed_eq_none {error : Option IoError}
    (h : ∀ raw X entry cause rest, frames ≠ .closing raw X entry cause :: rest) :
    w.closed frames error = none := by
  unfold closed
  split
  · next raw X entry cause rest => exact absurd rfl (h raw X entry cause rest)
  · rfl

end World

/-! ## Moments -/

namespace Moment

variable {s : System σ} {a a' : Act σ}

/-- The warnings of a run are its failed closes: nothing else gives one. -/
theorem level_of_mem_log {m : Moment σ} (h : m.closeEnd? = none) :
    ∀ ev ∈ m.log, ev.level = .debug := by
  unfold log
  cases hturn : m.turn? with
  | none => simp
  | some turn =>
    obtain ⟨s, a⟩ := m
    cases a with
    | turn t => exact World.level_of_mem_log_step hturn
    | opened t result => exact World.level_of_mem_log_opened hturn
    | closed t error =>
      have hnone : World.closed s.world (⟨s, .closed t error⟩ : Moment σ).frames error = none := by
        refine World.closed_eq_none fun raw X entry cause rest hf => ?_
        simp [closeEnd?, hf] at h
      cases hnone.symm.trans hturn
    | retired t => simp [World.log_retired hturn]
    | _ => cases hturn

/-- The frames of the thread do not depend on how the close ends. -/
theorem alikeButLog_closed (s : System σ) (t : ThreadId) (error error' : Option IoError) :
    AlikeButLog (⟨s, .closed t error⟩ : Moment σ) ⟨s, .closed t error'⟩ := by
  have hframes : (⟨s, .closed t error'⟩ : Moment σ).frames
      = (⟨s, .closed t error⟩ : Moment σ).frames := rfl
  by_cases hclosing : ∃ raw X entry cause rest,
      (⟨s, .closed t error⟩ : Moment σ).frames = .closing raw X entry cause :: rest
  · obtain ⟨raw, X, entry, cause, rest, hf⟩ := hclosing
    have hf' := hframes.trans hf
    have hend (e : Option IoError)
        (h : (⟨s, .closed t e⟩ : Moment σ).frames = .closing raw X entry cause :: rest) :
        (⟨s, .closed t e⟩ : Moment σ).closeEnd? = some ⟨raw, X, entry, cause, e⟩ := by
      simp only [closeEnd?, h]
    have hlog (e : Option IoError)
        (h : (⟨s, .closed t e⟩ : Moment σ).frames = .closing raw X entry cause :: rest) :
        (⟨s, .closed t e⟩ : Moment σ).log = World.closeReport X entry cause e := by
      simp only [log, turn?, Act.turn?, h]
      rfl
    refine ⟨.closed t error error', rfl, ?_, ?_, fun h => ?_, fun c hc => ⟨error', ?_⟩⟩
    · simp only [answer?, turn?, Act.turn?, hf, hf']
      rfl
    · simp only [events, turn?, Act.turn?, hf, hf']
      rfl
    · cases (hend error hf).symm.trans h
    · obtain rfl := Option.some.inj ((hend error hf).symm.trans hc)
      rw [hlog error hf, hlog error' hf']
      exact ⟨hend error' hf', World.logged_closeReport _, World.logged_closeReport _⟩
  · -- No close is at work on the thread, and neither act is possible.
    have hnone (e : Option IoError) : (⟨s, .closed t e⟩ : Moment σ).turn? = none :=
      World.closed_eq_none fun raw X entry cause rest hf =>
        hclosing ⟨raw, X, entry, cause, rest, hf⟩
    have hend (e : Option IoError) : (⟨s, .closed t e⟩ : Moment σ).closeEnd? = none := by
      unfold closeEnd?
      split
      · next raw X entry cause rest _ hf => exact absurd ⟨raw, X, entry, cause, rest, hf⟩ hclosing
      · rfl
    refine ⟨.closed t error error', rfl, ?_, ?_, fun _ => ⟨hend error', ?_, ?_⟩, fun c hc => ?_⟩
    · simp only [answer?, hnone]
    · simp only [events, hnone]
      rfl
    · simp only [log, hnone]
    · exact level_of_mem_log (hend error)
    · cases (hend error).symm.trans hc

theorem alikeButLog (h : a.Alike a') : AlikeButLog (⟨s, a⟩ : Moment σ) ⟨s, a'⟩ := by
  cases h with
  | same =>
    refine ⟨.same a, rfl, rfl, rfl, fun h => ⟨h, rfl, level_of_mem_log h⟩, fun c hc => ?_⟩
    cases a with
    | closed t error =>
      obtain ⟨error', h, hlog, hlog'⟩ := (alikeButLog_closed s t error error).ended c hc
      exact ⟨error', h, hlog, hlog'⟩
    | _ => simp [closeEnd?] at hc
  | closed t error error' => exact alikeButLog_closed s t error error'

end Moment

/-! ## Runs -/

namespace System

/-- What an act leads to does not depend on the error that it ends a close with. -/
theorem next?_congr (s : System σ) {a a' : Act σ} (h : a.Alike a') : s.next? a' = s.next? a := by
  cases h with
  | same => rfl
  | closed t error error' =>
    refine congrArg s.threads[t]?.bind (funext fun frames => ?_)
    cases frames with
    | nil => rfl
    | cons f rest => cases f <;> rfl

/-- Whether and how the closes of a run fail shows nowhere but in its log. At each moment the two
runs are at the same system, with the same slots, queues, counters and references, and go on with the
same answer and the same opens and closes. Where a close ends, each run logs how, as one warning if
it fails; everything else it logs is the same in both, and no warning. -/
theorem close_errors_only_logged (s : System σ) {acts acts' : List (Act σ)}
    (h : List.Forall₂ Act.Alike acts acts') :
    s.run? acts' = s.run? acts ∧
      List.Forall₂ Moment.AlikeButLog (s.moments acts) (s.moments acts') := by
  induction h generalizing s with
  | nil => exact ⟨rfl, .nil⟩
  | @cons a a' acts acts' ha _ ih =>
    have hnext := s.next?_congr ha
    have hfirst : List.Forall₂ Moment.AlikeButLog [(⟨s, a⟩ : Moment σ)] [⟨s, a'⟩] :=
      .cons (Moment.alikeButLog ha) .nil
    unfold run? moments
    rw [hnext]
    cases s.next? a with
    | none => exact ⟨rfl, hfirst⟩
    | some s₁ =>
      obtain ⟨hrun, hmoments⟩ := ih s₁
      exact ⟨hrun, List.rel_append hmoments hfirst⟩

/-- Two threads race for a file. The raw handle that loses is closed, and from inside its close the
file is acquired once more. -/
def contending (loser : Option IoError) : List (Act Unit) :=
  [.newPool {}, .spawn, .spawn, .call 0 (.acquire 0 ⟨.ofString "/a"⟩),
    .call 1 (.acquire 0 ⟨.ofString "/a"⟩), .turn 0, .turn 1, .turn 0, .turn 1, .opened 0 (.ok ()),
    .opened 1 (.ok ()), .turn 0, .turn 0, .turn 1, .turn 1, .turn 1, .turn 1,
    .call 1 (.acquire 0 ⟨.ofString "/a"⟩), .turn 1, .turn 1, .closed 1 loser, .turn 1]

/-- All references go, and a purge closes what the winner had. Acquired again, the file is let go of
when its pool is gone. -/
def releasing (drained inline : Option IoError) : List (Act Unit) :=
  [.call 0 (.drop 0), .turn 0, .call 0 (.drop 0), .turn 0, .call 0 (.drop 0), .turn 0, .turn 0,
    .call 0 (.purge 0), .turn 0, .turn 0, .turn 0, .closed 0 drained, .turn 0,
    .call 0 (.acquire 0 ⟨.ofString "/a"⟩), .turn 0, .turn 0, .opened 0 (.ok ()), .turn 0, .turn 0,
    .call 0 (.dropPool 0), .turn 0, .turn 0, .retired 0, .turn 0, .turn 0, .call 0 (.drop 2),
    .turn 0, .turn 0, .turn 0, .closed 0 inline]

/-- The close of the loser fails in one of the runs, and the two other closes in the other. -/
theorem close_errors_only_logged_raced :
    ∃ acts acts' : List (Act Unit), List.Forall₂ Act.Alike acts acts' ∧
      (({} : System Unit).run? acts).isSome ∧
      ((({} : System Unit).moments acts).filter fun m => m.closeEnd?.isSome).map Moment.log
        = [[.released ⟨.ofString "/a"⟩ 2], [.released ⟨.ofString "/a"⟩ 0],
            [.loserCloseFailed ⟨.ofString "/a"⟩ 1 .busy]] ∧
      ((({} : System Unit).moments acts').filter fun m => m.closeEnd?.isSome).map Moment.log
        = [[.closeFailed ⟨.ofString "/a"⟩ 2 .busy], [.closeFailed ⟨.ofString "/a"⟩ 0 .noEntry],
            []] ∧
      ({} : System Unit).run? acts' = ({} : System Unit).run? acts ∧
      List.Forall₂ Moment.AlikeButLog (({} : System Unit).moments acts)
        (({} : System Unit).moments acts') := by
  have hrace : List.Forall₂ Act.Alike (contending (some .busy)) (contending none) := by
    simp [contending, Act.Alike.same, Act.Alike.closed]
  have hrelease : List.Forall₂ Act.Alike (releasing none none)
      (releasing (some .noEntry) (some .busy)) := by
    simp [releasing, Act.Alike.same, Act.Alike.closed]
  have h := List.rel_append hrace hrelease
  obtain ⟨hrun, hmoments⟩ := close_errors_only_logged {} h
  exact ⟨_, _, h, by decide +kernel, by decide +kernel, by decide +kernel, hrun, hmoments⟩

end System

end ReadPool
