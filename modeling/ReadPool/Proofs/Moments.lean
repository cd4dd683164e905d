import Mathlib
import ReadPool.Proofs.Reachable

/-!
# Moments of a run

A run is kept by its moments: each is an act with the system that it meets, last first. A call is
followed from its beginning to its answer through all that happens meanwhile, and `isOwn` tells what
the call does itself from what others do, and from what is called while it waits for the
environment.

A thread is a stack, so what a call has left to do stands between what was there before it and what
was called on top of it. `Stacked.next` says that an act is either the call's own or leaves its part
of the stack alone.
-/

namespace ReadPool

namespace Act

/-- The thread that goes on by the act. -/
def thread? : Act σ → Option ThreadId
  | .turn t => some t
  | .opened t _ => some t
  | .closed t _ => some t
  | .retired t => some t
  | _ => none

/-- What comes of the act on a thread with these frames. -/
def turn? (a : Act σ) (w : World σ) (frames : List Frame) : Option (Turn σ) :=
  match a with
  | .turn _ => w.step frames
  | .opened _ result => w.opened frames result
  | .closed _ error => w.closed frames error
  | .retired _ => w.retired frames
  | _ => none

end Act

/-- An act with the system that it meets. -/
structure Moment (σ : Type u) where
  system : System σ
  act : Act σ

namespace Moment

/-- What the thread that goes on has left to do. -/
def frames (m : Moment σ) : List Frame :=
  (m.act.thread?.bind fun t => m.system.threads[t]?).getD []

def turn? (m : Moment σ) : Option (Turn σ) := m.act.turn? m.system.world m.frames

def events (m : Moment σ) : List Event :=
  (m.turn?.map fun turn => turn.events m.system.world m.frames).getD []

def log (m : Moment σ) : List LogEvent := (m.turn?.map Turn.log).getD []

def answer? (m : Moment σ) : Option Answer := m.turn?.bind Turn.answer

/-- The call that was made with `d` frames on thread `t` goes on by itself: no call stands above it
that was made from inside an open or a close, or by an opener on its way out. -/
def isOwn (t : ThreadId) (d : Nat) (m : Moment σ) : Bool :=
  m.act.thread? = some t && d < m.frames.length &&
    (m.frames.take (m.frames.length - d)).tail.all fun f => !f.isWaiting

/-- An acquisition looks its identity up. -/
def looksUp (p : PoolId) (X : Identity) (m : Moment σ) : Bool :=
  m.frames.head? = some (.lookUp p X)

/-- The slot of an identity is inserted, replaced or removed. -/
def changes (p : PoolId) (X : Identity) (m : Moment σ) : Bool :=
  (m.system.next? m.act).any fun s => s.world.slot? p X ≠ m.system.world.slot? p X

end Moment

namespace System

/-- How much a thread has left to do. -/
def depth (s : System σ) (t : ThreadId) : Nat := (s.threads[t]?.getD []).length

/-- Moments one after the other, last first, that lead from one system to another. -/
inductive Run (s₀ : System σ) : List (Moment σ) → System σ → Prop where
  | refl : Run s₀ [] s₀
  | next {ms : List (Moment σ)} {s s' : System σ} {a : Act σ} (h : Run s₀ ms s)
      (ha : s.next? a = some s') : Run s₀ (⟨s, a⟩ :: ms) s'

/-- The moments since a call that a thread has made, to its answer at the most. -/
structure Called (s₀ : System σ) (t : ThreadId) (c : Call) (ms : List (Moment σ))
    (s : System σ) : Prop where
  run : ∃ s₁, s₀.next? (.call t c) = some s₁ ∧ Run s₁ ms s
  going : ∀ m ∈ ms, s₀.depth t < m.system.depth t

/-- The moments of a run that is given by its acts. -/
def moments (s : System σ) : List (Act σ) → List (Moment σ)
  | [] => []
  | a :: acts => ((s.next? a).map fun s' => s'.moments acts).getD [] ++ [⟨s, a⟩]

end System

/-! ## What waits below -/

section Below

variable {w : World σ} {frames below : List Frame} {turn : Turn σ} {a : Act σ}

/-- The turn of frames that have others below them. -/
def Turn.above (turn : Turn σ) (below : List Frame) : Turn σ :=
  { turn with frames := turn.frames ++ below }

namespace Turn

@[simp] theorem world_above (turn : Turn σ) (below) : (turn.above below).world = turn.world := rfl

@[simp] theorem frames_above (turn : Turn σ) (below) :
    (turn.above below).frames = turn.frames ++ below := rfl

@[simp] theorem log_above (turn : Turn σ) (below) : (turn.above below).log = turn.log := rfl

@[simp] theorem answer_above (turn : Turn σ) (below) : (turn.above below).answer = turn.answer := rfl

@[simp] theorem gained_above (turn : Turn σ) (below) : (turn.above below).gained = turn.gained := rfl

theorem events_above (f : Frame) (frames : List Frame) :
    (turn.above below).events w (f :: frames ++ below) = turn.events w (f :: frames) := by
  cases f <;> rfl

end Turn

theorem isIdle_append (hne : frames ≠ []) : isIdle (frames ++ below) = isIdle frames := by
  cases frames with
  | nil => exact absurd rfl hne
  | cons f frames => rfl

namespace World

/-- A call is answered when it is over, whatever waits below it. -/
theorem finish_append (h : isIdle below) (answer : Answer) (log : List LogEvent) :
    w.finish (frames ++ below) answer log = (w.finish frames answer log).above below := by
  cases frames with
  | nil =>
    have hnil : isIdle [] := rfl
    simp [finish, Turn.above, h, hnil]
  | cons f frames => rfl

/-- What is done does not depend on what waits below. -/
theorem yields_append (hb : isIdle below) (h : w.step frames = some turn) :
    w.Yields (frames ++ below) (turn.above below) := by
  cases yields_step h with
  | drained hq => exact finish_append hb (.purged _) [] ▸ .drained hq
  | received hq => exact .received hq
  | evicted hr => exact .evicted hr
  | found hX hl => exact finish_append hb (.acquired (.ok _)) [] ▸ .found hX hl
  | missed hdead => exact .missed hdead
  | wrapped => exact .wrapped
  | published hs => exact finish_append hb (.acquired (.ok _)) [_] ▸ .published hs
  | lost hs => exact .lost hs
  | unwrapped hx hs hr => exact .unwrapped hx hs hr
  | shared hs => exact .shared hs
  | died hx hs hr => exact .died hx hs hr
  | dropped hw => exact finish_append hb .done [] ▸ .dropped hw
  | closing => exact .closing
  | posted hq => exact finish_append hb .done [] ▸ .posted hq
  | releasedInline hq => exact .releasedInline hq
  | retiring => exact .retiring
  | disconnected => exact .disconnected
  | flushed => exact finish_append hb .done [] ▸ .flushed
  | flushing => exact .flushing
  | openFailed | opened | closed | retired => cases h

theorem step_append (h : isIdle below) (f : Frame) (frames : List Frame) :
    w.step (f :: frames ++ below) = (w.step (f :: frames)).map (Turn.above · below) :=
  step_eq_map rfl fun _ => yields_append h

theorem opened_append (h : isIdle below) (f : Frame) (frames : List Frame)
    (result : Except IoError σ) :
    w.opened (f :: frames ++ below) result
      = (w.opened (f :: frames) result).map (Turn.above · below) := by
  cases f with
  | opening p X observed => cases result <;> simp [opened, finish_append h, Turn.above]
  | _ => rfl

theorem closed_append (h : isIdle below) (f : Frame) (frames : List Frame)
    (error : Option IoError) :
    w.closed (f :: frames ++ below) error
      = (w.closed (f :: frames) error).map (Turn.above · below) := by
  cases f with
  | closing raw X entry cause => simp [closed, finish_append h, Turn.above]
  | _ => rfl

theorem retired_append (h : isIdle below) (f : Frame) (frames : List Frame) :
    w.retired (f :: frames ++ below) = (w.retired (f :: frames)).map (Turn.above · below) := by
  cases f with
  | retiring p => simp [retired, finish_append h, Turn.above]
  | _ => rfl

end World

/-! ## What becomes of the pools -/

theorem Act.yields_turn (h : a.turn? w frames = some turn) : w.Yields frames turn := by
  cases a with
  | turn t => exact World.yields_step h
  | opened t result => exact World.yields_opened h
  | closed t error => exact World.yields_closed h
  | retired t => exact World.yields_retired h
  | _ => cases h

/-- A turn changes one pool at the most, and whether there is a queue only by ending it. -/
theorem World.Yields.exists_modify (h : w.Yields frames turn) :
    ∃ p g, turn.world.pools = w.pools.modify p g ∧ ∀ pool, w.pools[p]? = some pool →
      frames.head? = some (.disconnect p) ∨ ((g pool).queue.isSome ↔ pool.queue.isSome) := by
  have still (hp : turn.world.pools = w.pools) : ∃ p g, turn.world.pools = w.pools.modify p g ∧
      ∀ pool, w.pools[p]? = some pool →
        frames.head? = some (.disconnect p) ∨ ((g pool).queue.isSome ↔ pool.queue.isSome) :=
    ⟨0, id, by rw [hp, List.modify_id], fun _ _ => .inr Iff.rfl⟩
  cases h with
  | @received p n rest note notes hq =>
    refine ⟨p, _, rfl, fun pool hp => .inr ?_⟩
    obtain ⟨pool', notes', hp', hq', -⟩ := exists_of_mem_pending (hq ▸ List.mem_cons_self)
    obtain rfl : pool' = pool := Option.some.inj (hp'.symm.trans hp)
    simp [hq']
  | @posted home note rest notes hq =>
    refine ⟨home, _, rfl, fun pool hp => .inr ?_⟩
    rw [hp, Option.bind_some] at hq
    simp [hq]
  | @evicted p => exact ⟨p, _, rfl, fun _ _ => .inr Iff.rfl⟩
  | @wrapped p => exact ⟨p, _, rfl, fun _ _ => .inr Iff.rfl⟩
  | @published p => exact ⟨p, _, rfl, fun _ _ => .inr Iff.rfl⟩
  | @disconnected p => exact ⟨p, _, rfl, fun _ _ => .inl rfl⟩
  | dropped hw =>
    obtain ⟨f, rfl⟩ := exists_of_release hw
    exact still rfl
  | _ => exact still rfl

namespace World.Yields

/-- No turn makes a pool. -/
theorem length_pools (h : w.Yields frames turn) : turn.world.pools.length = w.pools.length := by
  obtain ⟨p, g, hpools, -⟩ := h.exists_modify
  rw [hpools, List.length_modify]

/-- A queue ends in one way. -/
theorem isUp_iff {f : Frame} {q : PoolId} (h : w.Yields (f :: frames) turn)
    (hf : f ≠ .disconnect q) : turn.world.isUp q ↔ w.isUp q := by
  obtain ⟨p, g, hpools, hg⟩ := h.exists_modify
  refine World.isUp_modify_iff hpools fun hpq pool hp => ?_
  rcases hg pool hp with hend | hkeep
  · exact absurd (hpq ▸ Option.some.inj hend) hf
  · exact hkeep

end World.Yields

theorem Act.turn?_append (h : isIdle below) (hne : frames ≠ []) :
    a.turn? w (frames ++ below) = (a.turn? w frames).map (Turn.above · below) := by
  obtain ⟨f, frames, rfl⟩ := List.exists_cons_of_ne_nil hne
  cases a with
  | turn t => exact World.step_append h f frames
  | opened t result => exact World.opened_append h f frames result
  | closed t error => exact World.closed_append h f frames error
  | retired t => exact World.retired_append h f frames
  | _ => rfl

end Below

namespace System

variable {s₀ s s' : System σ} {ms : List (Moment σ)} {a : Act σ} {t : ThreadId} {c : Call}

/-! ## Acts and threads -/

theorem next?_of_thread (h : a.thread? = some t) :
    s.next? a = s.threads[t]?.bind fun frames => (a.turn? s.world frames).map (s.take t frames) := by
  cases a <;> cases h <;> rfl

/-- An act by which a thread goes on is a turn of that thread. -/
theorem exists_turn (h : a.thread? = some t) (ha : s.next? a = some s') :
    ∃ frames turn, s.threads[t]? = some frames ∧ a.turn? s.world frames = some turn ∧
      s' = s.take t frames turn ∧ (⟨s, a⟩ : Moment σ).frames = frames ∧
      (⟨s, a⟩ : Moment σ).turn? = some turn := by
  rw [next?_of_thread h] at ha
  obtain ⟨frames, hframes, ha⟩ := Option.bind_eq_some_iff.1 ha
  obtain ⟨turn, hturn, rfl⟩ := Option.map_eq_some_iff.1 ha
  have hm : (⟨s, a⟩ : Moment σ).frames = frames := by simp [Moment.frames, h, hframes]
  exact ⟨frames, turn, hframes, hturn, rfl, hm, by rw [Moment.turn?, hm]; exact hturn⟩

/-- An act by which no thread goes on: a call, at the most, puts its frames on one. -/
theorem exists_call (h : a.thread? = none) (ha : s.next? a = some s') :
    s'.history = s.history ∧ (∀ p X, s'.world.slot? p X = s.world.slot? p X) ∧
      (s'.threads = s.threads ∨ s'.threads = s.threads ++ [[]] ∨
        ∃ t c frames, a = .call t c ∧ s.threads[t]? = some frames ∧ isIdle frames ∧
          s'.threads = s.threads.set t (c.frames ++ frames)) := by
  cases a with
  | spawn =>
    cases ha
    exact ⟨rfl, fun _ _ => rfl, .inr (.inl rfl)⟩
  | newPool config =>
    simp only [next?, World.newPool] at ha
    split at ha
    · cases ha
    · cases ha
      exact ⟨rfl, fun _ _ => World.slot?_addPool _, .inl rfl⟩
  | call t c =>
    obtain ⟨frames, ht, ha⟩ := Option.bind_eq_some_iff.1 ha
    split at ha
    · next hc =>
      cases ha
      exact ⟨rfl, fun _ _ => rfl,
        .inr (.inr ⟨t, c, frames, rfl, ht, (Bool.and_eq_true_iff.1 hc).1, rfl⟩)⟩
    · cases ha
  | clone k =>
    simp only [next?] at ha
    split at ha <;> cases ha
    exact ⟨rfl, fun _ _ => rfl, .inl rfl⟩
  | closeReference k =>
    simp only [next?] at ha
    split at ha <;> cases ha
    exact ⟨rfl, fun _ _ => rfl, .inl rfl⟩
  | read k f =>
    simp only [next?] at ha
    split at ha
    · obtain ⟨⟨_, world⟩, hw, rfl⟩ := Option.map_eq_some_iff.1 ha
      obtain ⟨raw, -, hw⟩ := Option.bind_eq_some_iff.1 hw
      obtain ⟨r, -, hw⟩ := Option.map_eq_some_iff.1 hw
      cases hw
      exact ⟨rfl, fun _ _ => rfl, .inl rfl⟩
    · cases ha
  | _ => cases h

theorem history_next (ha : s.next? a = some s') :
    s'.history = (⟨s, a⟩ : Moment σ).events ++ s.history := by
  cases h : a.thread? with
  | some t =>
    obtain ⟨frames, turn, -, -, rfl, hm, hturn⟩ := exists_turn h ha
    simp [Moment.events, hm, hturn, take]
  | none =>
    rw [(exists_call h ha).1]
    cases a <;> cases h <;> rfl

/-! ## One thread -/

theorem frames_eq {frames : List Frame} (h : s.threads = [frames]) : s.frames = frames := by
  simp [System.frames, h]

theorem eq_of_getElem? {frames frames' : List Frame} {t : ThreadId} (h : s.threads = [frames])
    (ht : s.threads[t]? = some frames') : t = 0 ∧ frames' = frames := by
  rw [h] at ht
  cases t with
  | zero => exact ⟨rfl, (Option.some.inj ht).symm⟩
  | succ t => simp at ht

/-! ## Runs -/

theorem Run.sound (h : Run s₀ ms s) (hs : Sound s₀) : Sound s := by
  induction h with
  | refl => exact hs
  | next _ ha ih => exact ih.next ha

theorem Run.reachable (h : Run s₀ ms s) (hs : s₀.Reachable) : s.Reachable := by
  induction h with
  | refl => exact hs
  | next _ ha ih => exact ih.next ha

/-- What every step keeps, a run keeps. -/
theorem Run.keeps {P : Scene σ → Prop} (h : Run s₀ ms s) (hs : Sound s₀) (start : P s₀.scene)
    (next : ∀ sc sc', Scene.Step sc sc' → P sc → P sc') : P s.scene := by
  induction h with
  | refl => exact start
  | next h ha ih => exact next _ _ ((h.sound hs).scene_next ha).1 ih

theorem Run.history (h : Run s₀ ms s) : s.history = ms.flatMap Moment.events ++ s₀.history := by
  induction h with
  | refl => rfl
  | next _ ha ih => rw [history_next ha, ih, List.flatMap_cons, List.append_assoc]

theorem run_append_iff {later earlier : List (Moment σ)} :
    Run s₀ (later ++ earlier) s ↔ ∃ s₁, Run s₀ earlier s₁ ∧ Run s₁ later s := by
  constructor
  · intro h
    induction later generalizing s with
    | nil => exact ⟨s, h, .refl⟩
    | cons m later ih =>
      cases h with
      | next h ha =>
        obtain ⟨s₁, h₁, h₂⟩ := ih h
        exact ⟨s₁, h₁, h₂.next ha⟩
  · rintro ⟨s₁, h₁, h₂⟩
    induction h₂ with
    | refl => exact h₁
    | next _ ha ih => exact ih.next ha

theorem run_moments {acts : List (Act σ)} (h : s.run? acts = some s') :
    Run s (s.moments acts) s' := by
  induction acts generalizing s with
  | nil =>
    cases h
    exact .refl
  | cons a acts ih =>
    obtain ⟨s₁, ha, h⟩ := Option.bind_eq_some_iff.1 h
    rw [moments, ha, Option.map_some, Option.getD_some]
    exact run_append_iff.2 ⟨s₁, .next .refl ha, ih h⟩

/-- A call with the acts that follow it. -/
theorem called_of_run? {acts : List (Act σ)} (h : s₀.run? (.call t c :: acts) = some s)
    (hgoing : ∀ m ∈ (s₀.moments (.call t c :: acts)).dropLast, s₀.depth t < m.system.depth t) :
    Called s₀ t c (s₀.moments (.call t c :: acts)).dropLast s := by
  obtain ⟨s₁, hcall, hrun⟩ := Option.bind_eq_some_iff.1 h
  have hms : (s₀.moments (.call t c :: acts)).dropLast = s₁.moments acts := by
    rw [moments, hcall, Option.map_some, Option.getD_some, List.dropLast_concat]
  exact ⟨⟨s₁, hcall, hms ▸ run_moments hrun⟩, hgoing⟩

/-! ## The stack of a thread -/

/-- A thread has `own` to do above `below`, and `nested` before that. -/
structure Stacked (s : System σ) (t : ThreadId) (below own nested : List Frame) : Prop where
  stack : s.threads[t]? = some (nested ++ own ++ below)
  idle : nested ≠ [] → isIdle own

variable {below own nested : List Frame}

theorem Stacked.depth_eq (h : Stacked s t below own nested) :
    s.depth t = nested.length + own.length + below.length := by
  simp [depth, h.stack, Nat.add_assoc]

/-- An act is the call's own where nothing stands above it. -/
theorem Stacked.isOwn_iff (h : Stacked s t below own nested) (hne : own ≠ [])
    (hbusy : ∀ f ∈ own.tail, f.isWaiting = false) :
    (⟨s, a⟩ : Moment σ).isOwn t below.length ↔ a.thread? = some t ∧ nested = [] := by
  simp only [Moment.isOwn, Bool.and_eq_true, decide_eq_true_eq, and_assoc]
  refine and_congr_right fun ht => ?_
  have hm : (⟨s, a⟩ : Moment σ).frames = nested ++ own ++ below := by
    simp [Moment.frames, ht, h.stack]
  have hlen : below.length < (nested ++ own ++ below).length := by
    have := List.length_pos_iff.2 hne
    simp only [List.length_append]
    omega
  have htake : (nested ++ own ++ below).take ((nested ++ own ++ below).length - below.length)
      = nested ++ own := List.take_left' (by simp only [List.length_append]; omega)
  rw [hm, htake, and_iff_right hlen]
  constructor
  · intro hall
    by_contra hn
    obtain ⟨f, own, rfl⟩ := List.exists_cons_of_ne_nil hne
    obtain ⟨g, nested, rfl⟩ := List.exists_cons_of_ne_nil hn
    -- The call is at a frame that waits, and that frame is below the top.
    have hf : f.isWaiting := h.idle hn
    have := List.all_eq_true.1 hall f (by simp)
    simp [hf] at this
  · rintro rfl
    simpa using hbusy

/-- An act is the next of the call's own, or it leaves the call's part of the stack alone. -/
theorem Stacked.next (h : Stacked s t below own nested) (hbelow : isIdle below) (hne : own ≠ [])
    (hbusy : ∀ f ∈ own.tail, f.isWaiting = false) (ha : s.next? a = some s') :
    ((⟨s, a⟩ : Moment σ).isOwn t below.length ∧ nested = [] ∧
      ∃ turn, a.turn? s.world own = some turn ∧ s' = s.take t (own ++ below) (turn.above below) ∧
        (⟨s, a⟩ : Moment σ).frames = own ++ below ∧
        (⟨s, a⟩ : Moment σ).turn? = some (turn.above below) ∧ Stacked s' t below turn.frames []) ∨
    ((⟨s, a⟩ : Moment σ).isOwn t below.length = false ∧
      ∃ nested', Stacked s' t below own nested') := by
  have hown := h.isOwn_iff (a := a) hne hbusy
  have hlt := (List.getElem?_eq_some_iff.1 h.stack).1
  cases hthread : a.thread? with
  | none =>
    right
    refine ⟨by simpa [hthread] using hown, ?_⟩
    obtain ⟨-, -, hsame | hspawn | ⟨t', c, frames, -, ht', hidle, hcall⟩⟩ := exists_call hthread ha
    · exact ⟨nested, hsame ▸ h.stack, h.idle⟩
    · exact ⟨nested, by rw [hspawn, List.getElem?_append_left hlt, h.stack], h.idle⟩
    · by_cases htt : t' = t
      · subst htt
        obtain rfl : frames = nested ++ own ++ below := Option.some.inj (ht'.symm.trans h.stack)
        refine ⟨c.frames ++ nested, by simp [hcall, List.getElem?_set_self hlt], fun _ => ?_⟩
        cases nested with
        | nil =>
          rw [List.nil_append, isIdle_append hne] at hidle
          exact hidle
        | cons g nested => exact h.idle (by simp)
      · exact ⟨nested, by rw [hcall, List.getElem?_set_ne htt, h.stack], h.idle⟩
  | some t' =>
    obtain ⟨frames, turn, hframes, hturn, rfl, hm, hmt⟩ := exists_turn hthread ha
    by_cases htt : t' = t
    · subst htt
      obtain rfl : frames = nested ++ own ++ below := Option.some.inj (hframes.symm.trans h.stack)
      have hset (frames' : List Frame) : (s.threads.set t' frames')[t']? = some frames' :=
        List.getElem?_set_self hlt
      cases hnested : nested with
      | nil =>
        -- Nothing stands above the call, so it is the call that goes on.
        subst hnested
        left
        rw [List.nil_append] at hturn hm
        rw [Act.turn?_append hbelow hne] at hturn
        obtain ⟨turn', hturn', rfl⟩ := Option.map_eq_some_iff.1 hturn
        exact ⟨hown.2 ⟨hthread, rfl⟩, rfl, turn', hturn', rfl, hm, hmt, hset _, by simp⟩
      | cons g rest =>
        -- What stands above the call goes on, and leaves what is below it.
        right
        have hidle : isIdle own := h.idle (by simp [hnested])
        rw [List.append_assoc, Act.turn?_append (by rwa [isIdle_append hne])
          (by simp [hnested])] at hturn
        obtain ⟨turn, -, rfl⟩ := Option.map_eq_some_iff.1 hturn
        refine ⟨by simpa [hthread, hnested] using hown, turn.frames, ?_, fun _ => hidle⟩
        simpa [take] using hset (turn.frames ++ (own ++ below))
    · right
      have hne' : some t' ≠ some t := fun he => htt (Option.some.inj he)
      refine ⟨by simpa [hthread, htt] using hown, nested, ?_, h.idle⟩
      simpa [take, List.getElem?_set_ne htt] using h.stack

end System

end ReadPool
