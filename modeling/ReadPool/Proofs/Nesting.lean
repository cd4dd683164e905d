import Mathlib
import ReadPool.Proofs.Interference
import ReadPool.Proofs.Drains

/-!
# Drains within drains

A lone thread drains a pool, and the closes that it comes to call pools again: they let references
go, drain and acquire, as often and as deep as they like. Openers call nothing, so no slot changes
between a look-up and its publication, and no race is lost (`Frame.steps_turn`).

`Nesting` says what such a thread has left to do, and `Called.nesting` what can happen to it: the
frame on top has its turn, or a close on top calls. `Frame.Steps` has all that a frame can do in its
turn.
-/

namespace ReadPool

/-! ## What nests -/

/-- A wrapper has been published. -/
def LogEvent.isPublished : LogEvent → Bool
  | published .. => true
  | _ => false

/-- What a close may call. -/
def Call.nests : Call → Bool
  | acquire _ _ => true
  | purge _ => true
  | drop _ => true
  | _ => false

namespace Frame

/-- The raw handle whose close is at work. -/
def closing? : Frame → Option RawId
  | closing raw _ _ _ => some raw
  | _ => none

def isPublish : Frame → Bool
  | publish _ _ _ _ => true
  | _ => false

/-- What may be on top of a thread in which drains nest. -/
def isUpper : Frame → Bool
  | discard _ => false
  | retire _ => false
  | retiring _ => false
  | disconnect _ => false
  | flush _ => false
  | close _ _ _ cause => cause = .death
  | closing _ _ _ cause => cause = .death
  | _ => true

/-- What may be below the top of such a thread. -/
def isLower : Frame → Bool
  | receive _ _ => true
  | lookUp _ _ => true
  | closing _ _ _ cause => cause = .death
  | _ => false

/-- What the acquisition on top has seen in the table is still there. -/
def Fresh (w : World σ) : Frame → Prop
  | opening p X observed => (w.slot? p X).map Slot.entry = observed
  | wrap p X observed _ => (w.slot? p X).map Slot.entry = observed
  | publish p X observed _ => (w.slot? p X).map Slot.entry = observed
  | _ => True

theorem isUpper_of_isLower {f : Frame} (h : f.isLower) : f.isUpper := by
  cases f with
  | closing => exact h
  | receive | lookUp => rfl
  | _ => cases h

theorem fresh_of_isLower {f : Frame} (h : f.isLower) (w : World σ) : f.Fresh w := by
  cases f with
  | opening | wrap | publish => cases h
  | _ => trivial

end Frame

namespace Moment

/-- The raw handle from whose close a call is made. -/
def caller? (m : Moment σ) : Option RawId :=
  match m.act with
  | .call t _ => (m.system.threads[t]?.bind List.head?).bind Frame.closing?
  | _ => none

/-- A thread goes on, or a close that is at work on it calls. -/
def nests (m : Moment σ) : Bool :=
  match m.act with
  | .turn _ => true
  | .opened _ _ => true
  | .closed _ _ => true
  | .retired _ => true
  | .call _ c => c.nests && m.caller?.isSome
  | _ => false

end Moment

/-! ## What a frame on top can do -/

/-- What a frame does when it has its turn: the world after it, and the frames in its place. -/
inductive Frame.Steps (w : World σ) : Frame → World σ → List Frame → Prop where
  | drained {p : PoolId} {n : Nat} (hq : w.pending p = []) : Steps w (.receive p n) w []
  | received {p : PoolId} {n : Nat} {note : Note} {notes : List Note}
      (hq : w.pending p = note :: notes) :
      Steps w (.receive p n) (w.updatePool p fun pool => { pool with queue := some notes })
        [.evict p note, .receive p (n + 1)]
  | evicted {p : PoolId} {note : Note} :
      Steps w (.evict p note)
        (w.updatePool p fun pool =>
          { pool with slots := pool.slots.evict note.identity note.entry })
        [.close note.raw note.identity note.entry .death]
  | found {p : PoolId} {X : Identity} {slot : Slot} (hl : w.isLive slot.wrapper) :
      Steps w (.lookUp p X) (w.retain slot.wrapper) []
  | missed {p : PoolId} {X : Identity} :
      Steps w (.lookUp p X) w [.opening p X ((w.slot? p X).map Slot.entry)]
  | openFailed {p : PoolId} {X : Identity} {observed : Option Entry} :
      Steps w (.opening p X observed) w []
  | opened {p : PoolId} {X : Identity} {observed : Option Entry} (state : σ) :
      Steps w (.opening p X observed) (w.addRaw X state).1 [.wrap p X observed w.raws.length]
  | wrapped {p : PoolId} {X : Identity} {observed : Option Entry} {raw : RawId} {entry : Entry} :
      Steps w (.wrap p X observed raw)
        ((w.updatePool p fun pool => { pool with next := pool.next + 1 }).addWrapper
          p X entry raw).1
        [.publish p X observed w.wrappers.length]
  | published {p : PoolId} {X : Identity} {observed : Option Entry} {h : WrapperId}
      {slots : Slots} :
      Steps w (.publish p X observed h) (w.updatePool p fun pool => { pool with slots }) []
  | dropped {h : WrapperId} {x : Wrapper} (hx : w.wrappers[h]? = some x) (hs : x.strong ≠ 1) :
      Steps w (.drop h) (w.updateWrapper h fun x => { x with strong := x.strong - 1 }) []
  | died {h : WrapperId} {x : Wrapper} {raw : RawId} (hx : w.wrappers[h]? = some x)
      (hs : x.strong = 1) (hr : x.stream = some raw) :
      Steps w (.drop h) (w.updateWrapper h fun x => { x with strong := 0, stream := none })
        [.post x.home ⟨x.identity, x.entry, raw⟩]
  | closing {raw : RawId} {X : Identity} {entry : Entry} :
      Steps w (.close raw X entry .death) (w.updateRaw raw fun r => { r with phase := .closing })
        [.closing raw X entry .death]
  | closed {raw : RawId} {X : Identity} {entry : Entry} :
      Steps w (.closing raw X entry .death)
        (w.updateRaw raw fun r => { r with phase := .closed }) []
  | posted {home : PoolId} {note : Note} {notes : List Note}
      (hq : w.pools[home]?.bind Pool.queue = some notes) :
      Steps w (.post home note)
        (w.updatePool home fun pool => { pool with queue := some (notes ++ [note]) }) []
  | releasedInline {home : PoolId} {note : Note} (hq : w.pools[home]?.bind Pool.queue = none) :
      Steps w (.post home note) w [.close note.raw note.identity note.entry .death]

section

open Scene

variable {w : World σ} {f : Frame} {rest : List Frame} {turn : Turn σ} {a : Act σ}
  {O : Multiset Frame} {H : Multiset WrapperId} {E : List Event}

theorem Frame.steps_turn (hv : Valid ⟨w, f ::ₘ O, H, E⟩) (hf : f.isUpper) (hfresh : f.Fresh w)
    (h : w.Yields (f :: rest) turn) :
    ∃ top, turn.frames = top ++ rest ∧ f.Steps w turn.world top ∧
      turn.log.any LogEvent.isPublished = f.isPublish := by
  cases h with
  | drained hq => exact ⟨[], rfl, .drained hq, rfl⟩
  | received hq => exact ⟨[_, _], rfl, .received hq, rfl⟩
  | evicted => exact ⟨[_], rfl, .evicted, rfl⟩
  | found hX hl => exact ⟨[], rfl, .found hl, rfl⟩
  | missed => exact ⟨[_], rfl, .missed, rfl⟩
  | openFailed => exact ⟨[], rfl, .openFailed, rfl⟩
  | opened state => exact ⟨[_], rfl, .opened state, rfl⟩
  | wrapped => exact ⟨[_], rfl, .wrapped, rfl⟩
  | published => exact ⟨[], rfl, .published, rfl⟩
  | @lost p X observed k _ hs =>
    -- Nothing has changed the slot since the look-up.
    obtain ⟨pool, hp⟩ := exists_pool hv (p := p) (by simp [Frame.acquiring])
    exact absurd hfresh ((World.publish?_eq_none_iff hp).1 hs)
  | died hx hs hr => exact ⟨[_], rfl, .died hx hs hr, rfl⟩
  | dropped hw =>
    obtain ⟨x, hx, hs, rfl⟩ := exists_of_release_eq_none hv (by simp [Frame.dropped]) hw
    exact ⟨[], rfl, .dropped hx hs, rfl⟩
  | @closing raw X entry cause =>
    obtain rfl : cause = .death := by simpa [Frame.isUpper] using hf
    exact ⟨[_], rfl, .closing, rfl⟩
  | @closed raw X entry cause _ error =>
    obtain rfl : cause = .death := by simpa [Frame.isUpper] using hf
    exact ⟨[], rfl, .closed, by cases error <;> rfl⟩
  | posted hq => exact ⟨[], rfl, .posted hq, rfl⟩
  | releasedInline hq => exact ⟨[_], rfl, .releasedInline hq, rfl⟩
  | unwrapped | shared | retiring | retired | disconnected | flushed | flushing => cases hf

/-- A frame on top can have its turn, with the environment's answer where it waits for one. -/
theorem Frame.exists_turn (f : Frame) (w : World σ) (rest : List Frame) :
    ∃ (a : Act σ) (turn : Turn σ), a.thread? = some 0 ∧ a.turn? w (f :: rest) = some turn := by
  cases hf : f.isWaiting with
  | false =>
    obtain ⟨turn, hturn⟩ := w.exists_step rest hf
    exact ⟨.turn 0, turn, rfl, hturn⟩
  | true =>
    cases f with
    | opening => exact ⟨.opened 0 (.error .busy), _, rfl, rfl⟩
    | closing => exact ⟨.closed 0 none, _, rfl, rfl⟩
    | retiring => exact ⟨.retired 0, _, rfl, rfl⟩
    | _ => cases hf

end

namespace Frame.Steps

variable {w w' : World σ} {f : Frame} {top : List Frame}

/-- What comes on top may be there, and a loop that has received stays below. -/
theorem isUpper (h : f.Steps w w' top) : ∀ g ∈ top.head?, g.isUpper := by
  cases h <;> simp [Frame.isUpper]

theorem isLower (h : f.Steps w w' top) : ∀ g ∈ top.tail, g.isLower := by
  cases h <;> simp [Frame.isLower]

/-- From a look-up to its publication, nothing comes between. -/
theorem fresh (h : f.Steps w w' top) (hf : f.Fresh w) : ∀ g ∈ top, g.Fresh w' := by
  cases h with
  | opened state => simpa [Fresh] using hf
  | wrapped => simpa [Fresh] using hf
  | _ => simp [Fresh]

/-- A loop ends where nothing is left to receive, or it has received one death more. -/
theorem of_receive {p : PoolId} {n : Nat} (h : (Frame.receive p n).Steps w w' top) :
    top = [] ∧ w'.pending p = [] ∨ ∃ note, top = [.evict p note, .receive p (n + 1)] := by
  cases h with
  | drained hq => exact .inl ⟨rfl, hq⟩
  | @received _ _ note => exact .inr ⟨note, rfl⟩

end Frame.Steps

namespace System

variable {s₀ s s' : System σ} {ms : List (Moment σ)} {a : Act σ} {c : Call} {p : PoolId}
  {below own rest top : List Frame} {f : Frame} {t : ThreadId}

/-! ## A lone thread that drains -/

theorem depth_lone {frames : List Frame} (h : s.threads = [frames]) :
    s.depth 0 = frames.length := by
  simp [depth, h]

/-- The only thread drains `p`: `own` is what it has left of that, with all that was called in
between, above `below`. The loop of the drain is at the bottom of it. -/
structure Nesting (s : System σ) (p : PoolId) (below own : List Frame) : Prop where
  threads : s.threads = [own ++ below]
  waits : isIdle below
  isUp : s.world.isUp p
  stays : .disconnect p ∉ below
  upper : ∀ f ∈ own.head?, f.isUpper ∧ f.Fresh s.world
  lower : ∀ f ∈ own.tail, f.isLower
  last : own = [] ∧ s.world.pending p = [] ∨ ∃ inner n, own = inner ++ [.receive p n]

/-- The frame `f` has its turn, and `top` comes in its place. -/
structure Goes (s : System σ) (a : Act σ) (s' : System σ) (below : List Frame) (f : Frame)
    (rest top : List Frame) : Prop where
  act : s.next? a = some s'
  thread : a.thread? = some 0
  frames : (⟨s, a⟩ : Moment σ).frames = f :: (rest ++ below)
  steps : f.Steps s.world s'.world top
  isPublished : (⟨s, a⟩ : Moment σ).log.any LogEvent.isPublished = f.isPublish

namespace Nesting

section

variable (hn : Nesting s p below own)
include hn

theorem depth_eq : s.depth 0 = own.length + below.length := by
  simp [depth, hn.threads]

/-- A drain is over when its thread is as deep as before. -/
theorem ne_nil_iff : own ≠ [] ↔ below.length < s.depth 0 := by
  rw [hn.depth_eq, ← List.length_pos_iff]
  omega

theorem isOpen : s.isOpen p := by
  refine isOpen_iff.2 ⟨hn.isUp, ?_⟩
  rw [frames_eq hn.threads, Multiset.mem_coe, List.mem_append]
  rintro (hown | hbelow)
  · cases own with
    | nil => cases hown
    | cons f rest =>
      rcases List.mem_cons.1 hown with rfl | hrest
      · cases (hn.upper _ rfl).1
      · cases hn.lower _ hrest
  · exact hn.stays hbelow

/-- A close calls. -/
theorem next_call (hne : own ≠ []) (hm : (⟨s, .call t c⟩ : Moment σ).nests)
    (ha : s.next? (.call t c) = some s') :
    t = 0 ∧ s'.world = s.world ∧ Nesting s' p below (c.frames ++ own) := by
  obtain ⟨frames, ht, ha⟩ := Option.bind_eq_some_iff.1 ha
  obtain ⟨rfl, rfl⟩ := eq_of_getElem? hn.threads ht
  simp only [Moment.nests, Moment.caller?, ht, Option.bind_some, Bool.and_eq_true] at hm
  obtain ⟨hc, hcaller⟩ := hm
  obtain ⟨f, rest, rfl⟩ := List.exists_cons_of_ne_nil hne
  -- What calls waits for that, so the call may stand on it.
  have hlower : ∀ g ∈ f :: rest, g.isLower := by
    refine List.forall_mem_cons.2 ⟨?_, hn.lower⟩
    have hf := (hn.upper f rfl).1
    cases f with
    | closing => exact hf
    | _ => cases hcaller
  split at ha
  · cases ha
    refine ⟨rfl, rfl, ?_⟩
    obtain ⟨inner, n, hlast⟩ := hn.last.resolve_left fun h => hne h.1
    refine ⟨by simp [hn.threads], hn.waits, hn.isUp, hn.stays, ?_, ?_,
      .inr ⟨c.frames ++ inner, n, by rw [hlast, List.append_assoc]⟩⟩
    · cases c with
      | acquire | purge | drop => simp [Call.frames, Frame.isUpper, Frame.Fresh]
      | _ => cases hc
    · cases c with
      | acquire => simpa [Call.frames, Frame.isLower] using hlower
      | purge | drop => exact hlower
      | _ => cases hc
  · cases ha

end

/-- The frame on top has its turn. -/
theorem next_turn (hs : Sound s) (hn : Nesting s p below (f :: rest)) (hthread : a.thread? = some t)
    (ha : s.next? a = some s') :
    ∃ top, Goes s a s' below f rest top ∧ Nesting s' p below (top ++ rest) := by
  obtain ⟨frames, turn, ht, hturn, rfl, hframes, hmturn⟩ := exists_turn hthread ha
  obtain ⟨rfl, rfl⟩ := eq_of_getElem? hn.threads ht
  obtain ⟨hupper, hfresh⟩ := hn.upper f rfl
  have hv : Scene.Valid ⟨s.world, f ::ₘ (rest ++ below : List Frame), s.held, s.history⟩ := by
    have := hs.valid
    rwa [scene, frames_eq hn.threads] at this
  obtain ⟨top, htop, hsteps, hlog⟩ := Frame.steps_turn hv hupper hfresh (Act.yields_turn hturn)
  refine ⟨top, ⟨ha, hthread, hframes, hsteps, by simpa [Moment.log, hmturn] using hlog⟩, ?_⟩
  have hup : turn.world.isUp p :=
    ((Act.yields_turn hturn).isUp_iff fun hf => by subst hf; cases hupper).2 hn.isUp
  refine ⟨by simp [take, hn.threads, htop], hn.waits, hup, hn.stays, ?_, ?_, ?_⟩
  · cases top with
    | nil =>
      intro g hg
      have hlower := hn.lower g (List.mem_of_mem_head? hg)
      exact ⟨Frame.isUpper_of_isLower hlower, Frame.fresh_of_isLower hlower _⟩
    | cons g top =>
      intro g' hg
      obtain rfl : g = g' := Option.some.inj hg
      exact ⟨hsteps.isUpper g rfl, hsteps.fresh hfresh g List.mem_cons_self⟩
  · cases top with
    | nil => exact fun g hg => hn.lower g (List.mem_of_mem_tail hg)
    | cons g top =>
      intro g' hg
      rcases List.mem_append.1 hg with htail | hrest
      · exact hsteps.isLower g' htail
      · exact hn.lower g' hrest
  · obtain ⟨inner, n, hlast⟩ := hn.last.resolve_left fun h => List.cons_ne_nil _ _ h.1
    rcases List.cons_eq_append_iff.1 hlast with ⟨rfl, hloop⟩ | ⟨inner, rfl, rfl⟩
    · -- Nothing stands above the loop of the drain, so it is the loop that goes on.
      obtain ⟨rfl, rfl⟩ : Frame.receive p n = f ∧ [] = rest := by simpa using hloop
      rcases hsteps.of_receive with ⟨rfl, hq⟩ | ⟨note, rfl⟩
      · exact .inl ⟨rfl, hq⟩
      · exact .inr ⟨[.evict p note], n + 1, rfl⟩
    · exact .inr ⟨top ++ inner, n, (List.append_assoc _ _ _).symm⟩

/-- It is called where the thread waits, and the pool is there. -/
theorem call (hbelow : s₀.threads = [below]) (ha : s₀.next? (.call 0 (.purge p)) = some s) :
    s.world = s₀.world ∧ Nesting s p below [.receive p 0] := by
  obtain ⟨frames, ht, ha⟩ := Option.bind_eq_some_iff.1 ha
  obtain ⟨-, rfl⟩ := eq_of_getElem? hbelow ht
  split at ha
  · next hc =>
    cases ha
    obtain ⟨hidle, hadmits⟩ := Bool.and_eq_true_iff.1 hc
    obtain ⟨hup, hstays⟩ := isOpen_iff.1 hadmits
    rw [frames_eq hbelow, Multiset.mem_coe] at hstays
    exact ⟨rfl, by simp [hbelow, Call.frames], hidle, hup, hstays,
      by simp [Frame.isUpper, Frame.Fresh], by simp, .inr ⟨[], 0, rfl⟩⟩
  · cases ha

/-- A drain that is not over goes on by some act. -/
theorem exists_next (hn : Nesting s p below own) (hne : own ≠ []) :
    ∃ (a : Act σ) (s' : System σ), (⟨s, a⟩ : Moment σ).nests ∧ a.thread? = some 0 ∧
      s.next? a = some s' := by
  obtain ⟨f, rest, rfl⟩ := List.exists_cons_of_ne_nil hne
  obtain ⟨a, turn, hthread, hturn⟩ := f.exists_turn s.world (rest ++ below)
  refine ⟨a, s.take 0 (f :: (rest ++ below)) turn, ?_, hthread, ?_⟩
  · cases a <;> cases hthread <;> rfl
  · simp [next?_of_thread hthread, hn.threads, hturn]

end Nesting

/-- What holds when a drain is called, and is kept by each turn and by each call that a close makes,
holds until the drain is over. -/
theorem Called.nesting {Q : List (Moment σ) → System σ → List Frame → Prop} (hs : Sound s₀)
    (hbelow : s₀.threads = [below]) (h : Called s₀ 0 (.purge p) ms s) (hms : ∀ m ∈ ms, m.nests)
    (start : ∀ s₁, s₁.world = s₀.world → Q [] s₁ [.receive p 0])
    (call : ∀ ms s s' own c, Nesting s p below own → c.nests → s'.world = s.world → Q ms s own →
      Q (⟨s, .call 0 c⟩ :: ms) s' (c.frames ++ own))
    (go : ∀ ms s a s' f rest top, Nesting s p below (f :: rest) → Goes s a s' below f rest top →
      Q ms s (f :: rest) → Q (⟨s, a⟩ :: ms) s' (top ++ rest)) :
    ∃ own, Nesting s p below own ∧ Q ms s own := by
  have hdepth := depth_lone hbelow
  refine h.induct (Q := fun ms s => (∀ m ∈ ms, m.nests) → ∃ own, Nesting s p below own ∧ Q ms s own)
    (fun s₁ hcall _ => ?_) ?_ hms
  · obtain ⟨hworld, hn⟩ := Nesting.call hbelow hcall
    exact ⟨_, hn, start s₁ hworld⟩
  · intro ms s a s' hcalled hlt ha ih hms
    obtain ⟨hm, hms⟩ := List.forall_mem_cons.1 hms
    obtain ⟨own, hn, hQ⟩ := ih hms
    have hne : own ≠ [] := hn.ne_nil_iff.2 (hdepth ▸ hlt)
    cases hthread : a.thread? with
    | some t =>
      obtain ⟨f, rest, rfl⟩ := List.exists_cons_of_ne_nil hne
      obtain ⟨top, hgoes, hn'⟩ := Nesting.next_turn (hcalled.sound hs) hn hthread ha
      exact ⟨top ++ rest, hn', go ms s a s' f rest top hn hgoes hQ⟩
    | none =>
      cases a with
      | call t c =>
        obtain ⟨rfl, hworld, hn'⟩ := hn.next_call hne hm ha
        exact ⟨c.frames ++ own, hn', call ms s s' own c hn (Bool.and_eq_true_iff.1 hm).1 hworld hQ⟩
      | turn | opened | closed | retired => cases hthread
      | _ => cases hm

end System

end ReadPool
