import Mathlib
import ReadPool.Pool.Step

/-!
# Threads that share pools

Any number of threads on one world. A run is a list of acts: each gives one thread its next action,
lets the environment answer, or has a caller do something with the references that callers hold.
Whoever is idle may call, so a thread may also call while an opener or a close is at work on it, or
an opener is on its way out.

The order of the acts is the interleaving; `Reachable` is what comes of any of them. The history of
a system records what happened, last first.
-/

namespace ReadPool

/-- The place of a thread in its system. -/
abbrev ThreadId := Nat

inductive Event where
  /-- The opener of a pool is called. -/
  | asked (p : PoolId) (X : Identity)
  | opened (p : PoolId) (raw : RawId)
  | wrapped (p : PoolId) (h : WrapperId) (raw : RawId)
  | published (h : WrapperId)
  /-- An acquisition from `p` of what `X` names has given `h`. -/
  | acquired (p : PoolId) (X : Identity) (h : WrapperId)
  | posted (p : PoolId)
  /-- A drain has found nothing more to receive. -/
  | drained (p : PoolId)
  | closing (raw : RawId) (cause : CloseCause)
  | closed (raw : RawId)
  /-- A pool's queue has ended, and these raw handles were in the deaths that it had left. -/
  | ended (p : PoolId) (left : List RawId)
deriving DecidableEq

/-- Since a death was last posted to the pool, a drain has found nothing more to receive. -/
def caughtUp (p : PoolId) : List Event → Bool
  | [] => true
  | .drained q :: events => q = p || caughtUp p events
  | .posted q :: events => q ≠ p && caughtUp p events
  | _ :: events => caughtUp p events

/-- What a pool's opener was asked for, last first. -/
def asks (p : PoolId) (events : List Event) : List Identity :=
  events.filterMap fun
    | .asked q X => if q = p then some X else none
    | _ => none

/-- The pool that a frame works on. -/
def Frame.pool? : Frame → Option PoolId
  | receive p _ => some p
  | evict p _ => some p
  | lookUp p _ => some p
  | opening p _ _ => some p
  | wrap p _ _ _ => some p
  | publish p _ _ _ => some p
  | retire p => some p
  | retiring p => some p
  | disconnect p => some p
  | _ => none

namespace Turn

/-- The reference that a turn hands to a caller. -/
def gained (t : Turn σ) : List WrapperId :=
  match t.answer with
  | some (.acquired (.ok h)) => [h]
  | _ => []

/-- What has happened in a turn of these frames, last first. -/
def events (w : World σ) (frames : List Frame) (t : Turn σ) : List Event :=
  match frames with
  | .receive p _ :: _ => if w.pending p = [] then [.drained p] else []
  | .lookUp p X :: _ =>
    match t.answer with
    | some (.acquired (.ok h)) => [.acquired p X h]
    | _ => [.asked p X]
  | .opening p _ _ :: _ =>
    if w.raws.length < t.world.raws.length then [.opened p w.raws.length] else []
  | .wrap p _ _ raw :: _ => [.wrapped p w.wrappers.length raw]
  | .publish p X _ h :: _ =>
    match t.answer with
    | some (.acquired (.ok _)) => [.acquired p X h, .published h]
    | _ => []
  | .post home _ :: _ => if (w.pools[home]?.bind Pool.queue).isSome then [.posted home] else []
  | .close raw _ _ cause :: _ => [.closing raw cause]
  | .closing raw _ _ _ :: _ => [.closed raw]
  | .disconnect p :: _ => [.ended p ((w.pending p).map Note.raw)]
  | _ => []

end Turn

structure System (σ : Type u) where
  world : World σ := {}
  /-- What each thread has left to do. -/
  threads : List (List Frame) := []
  /-- The references that callers hold, a wrapper once for each. -/
  held : List WrapperId := []
  history : List Event := []

inductive Act (σ : Type u) where
  | spawn
  | newPool (config : Config)
  | call (t : ThreadId) (c : Call)
  /-- A thread does its next action. -/
  | turn (t : ThreadId)
  /-- The opener at work on a thread answers. -/
  | opened (t : ThreadId) (result : Except IoError σ)
  /-- The close at work on a thread ends. -/
  | closed (t : ThreadId) (error : Option IoError)
  /-- The opener on its way out on a thread has gone. -/
  | retired (t : ThreadId)
  | clone (h : WrapperId)
  | closeReference (h : WrapperId)
  /-- A read, by what it does to the state of the raw handle. -/
  | read (h : WrapperId) (f : σ → σ)

namespace System

/-- All that is going on. -/
def frames (s : System σ) : List Frame := s.threads.flatten

/-- The pool is there, and nobody has begun to end it. -/
def isOpen (s : System σ) (p : PoolId) : Bool :=
  (s.world.pools[p]?.bind Pool.queue).isSome && !s.frames.contains (.disconnect p)

/-- A caller can make the call. An acquisition or a drain borrows the pool, so the pool cannot be
dropped before they are over, nor be borrowed once it is dropped. Only a reference that is held can
be let go. -/
def admits (s : System σ) : Call → Bool
  | .acquire p _ => s.isOpen p
  | .purge p => s.isOpen p
  | .drop h => s.held.contains h
  | .dropPool p => s.isOpen p && s.frames.all fun f => f.pool? ≠ some p
  | .post _ _ => false
  | .release _ => false
  | .disconnect _ => false

/-- The references that are left to callers after a call. -/
def afterCall (held : List WrapperId) : Call → List WrapperId
  | .drop h => held.erase h
  | _ => held

/-- The system after a turn of a thread. -/
def take (s : System σ) (t : ThreadId) (frames : List Frame) (turn : Turn σ) : System σ where
  world := turn.world
  threads := s.threads.set t turn.frames
  held := turn.gained ++ s.held
  history := turn.events s.world frames ++ s.history

/-- The system after an act; none if the act is not possible. -/
def next? (s : System σ) : Act σ → Option (System σ)
  | .spawn => some { s with threads := s.threads ++ [[]] }
  | .newPool config => (s.world.newPool config).toOption.map fun (world, _) => { s with world }
  | .call t c =>
    s.threads[t]?.bind fun frames =>
      if isIdle frames && s.admits c then
        some { s with
          threads := s.threads.set t (c.frames ++ frames)
          held := afterCall s.held c }
      else none
  | .turn t => s.threads[t]?.bind fun frames => (s.world.step frames).map (s.take t frames)
  | .opened t result =>
    s.threads[t]?.bind fun frames => (s.world.opened frames result).map (s.take t frames)
  | .closed t error =>
    s.threads[t]?.bind fun frames => (s.world.closed frames error).map (s.take t frames)
  | .retired t => s.threads[t]?.bind fun frames => (s.world.retired frames).map (s.take t frames)
  | .clone h =>
    if s.held.contains h then
      some { s with world := s.world.retain h, held := h :: s.held }
    else none
  | .closeReference h =>
    if s.held.contains h then some { s with world := s.world.closeReference h } else none
  | .read h f =>
    if s.held.contains h then
      (s.world.readThrough h fun state => ((), f state)).map fun (_, world) => { s with world }
    else none

/-- The system after the acts of a run, first things first. -/
def run? (s : System σ) : List (Act σ) → Option (System σ)
  | [] => some s
  | a :: acts => (s.next? a).bind fun s => s.run? acts

/-- Some run that starts with nothing leads here. -/
def Reachable (s : System σ) : Prop := ∃ acts, ({} : System σ).run? acts = some s

theorem run?_append (s : System σ) (as bs : List (Act σ)) :
    s.run? (as ++ bs) = (s.run? as).bind fun s => s.run? bs := by
  induction as generalizing s with
  | nil => rfl
  | cons a as ih =>
    simp only [List.cons_append, run?]
    cases s.next? a with
    | none => rfl
    | some s' => exact ih s'

theorem Reachable.start : Reachable ({} : System σ) := ⟨[], rfl⟩

theorem Reachable.next {s s' : System σ} (h : Reachable s) {a : Act σ}
    (ha : s.next? a = some s') : Reachable s' := by
  obtain ⟨acts, hacts⟩ := h
  refine ⟨acts ++ [a], ?_⟩
  rw [run?_append, hacts]
  simp [run?, ha]

/-- What holds at the start and is kept by every act holds of whatever is reached. -/
theorem Reachable.keeps {P : System σ → Prop} (start : P {})
    (next : ∀ s a s', P s → s.next? a = some s' → P s') {s : System σ} (h : Reachable s) : P s := by
  obtain ⟨acts, hacts⟩ := h
  suffices H : ∀ s₀ : System σ, P s₀ → s₀.run? acts = some s → P s from H {} start hacts
  clear hacts
  induction acts with
  | nil =>
    intro s₀ h₀ hs
    cases hs
    exact h₀
  | cons a acts ih =>
    intro s₀ h₀ hs
    obtain ⟨s₁, h₁, hs₁⟩ := Option.bind_eq_some_iff.1 hs
    exact ih s₁ (next s₀ a s₁ h₀ h₁) hs₁

end System

end ReadPool
