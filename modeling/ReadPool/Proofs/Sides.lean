import Mathlib
import ReadPool.Proofs.Part
import ReadPool.Proofs.Release

/-!
# Two sides of a thread

Every frame works for one pool or for the others, and whatever a thread does keeps to the side that
it is on (`Sided.of_yields`), for a pool's slots, queue and wrappers lead to nothing that another pool has
made. What is done on the pool's side is done by the pool alone as well (`act_own`), and what is done
on the other side does not show (`act_foreign`).
-/

namespace ReadPool

variable {part : Part} {w : World σ} {b : Bool} {p : PoolId} {h : WrapperId} {raw : RawId}
  {F : List Frame} {turn : Turn σ} {sc sc' : Scene σ}

/-! ## What belongs to a pool -/

namespace Part

/-- The part has what its pool has made, and nothing that another has made. -/
structure Fits (part : Part) (events : List Event) : Prop where
  wrapped : ∀ p h raw, .wrapped p h raw ∈ events → part.wrappers h = part.hasPool p
  opened : ∀ p raw, .opened p raw ∈ events → part.raws raw = part.hasPool p

theorem Fits.mono {events events' : List Event} (hf : part.Fits events') (h : events ⊆ events') :
    part.Fits events :=
  ⟨fun p k raw hw => hf.wrapped p k raw (h hw), fun p raw ho => hf.opened p raw (h ho)⟩

/-- The world comes apart into the part and the rest. -/
structure Splits (part : Part) (w : World σ) : Prop where
  wrappers : ∀ (h : WrapperId) (x : Wrapper), w.wrappers[h]? = some x →
    part.wrappers h = part.hasPool x.home
  streams : ∀ (h : WrapperId) (x : Wrapper) (raw : RawId), w.wrappers[h]? = some x →
    x.stream = some raw → part.raws raw = part.hasPool x.home
  slots : ∀ (p : PoolId) (X : Identity) (slot : Slot),
    (w.pools[p]?.bind fun pool => pool.slots.find? X) = some slot →
    part.wrappers slot.wrapper = part.hasPool p
  queues : ∀ p, ∀ note ∈ w.pending p, part.raws note.raw = part.hasPool p

theorem fits_of (ho : sc.Owned) (p : PoolId) : (Part.of p sc.history).Fits sc.history := by
  constructor
  · intro q h raw hw
    rw [Bool.eq_iff_iff, hasPool_iff]
    simp only [of, List.any_eq_true]
    constructor
    · rintro ⟨ev, hev, hm⟩
      -- Another pool would have to be the home of the same wrapper.
      cases ev with
      | wrapped q' k raw' =>
        obtain ⟨rfl, rfl⟩ : q' = p ∧ k = h := by simpa using hm
        obtain ⟨x, hx, hhome⟩ := ho.home_of_wrapped _ _ _ hw
        obtain ⟨x', hx', hhome'⟩ := ho.home_of_wrapped _ _ _ hev
        obtain rfl : x = x' := Option.some.inj (hx.symm.trans hx')
        exact hhome.symm.trans hhome'
      | _ => simp at hm
    · rintro rfl
      exact ⟨_, hw, by simp⟩
  · intro q raw hopen
    rw [Bool.eq_iff_iff, hasPool_iff]
    simp only [of, List.contains_iff_mem]
    exact ⟨fun h => ho.opened_inj hopen h, fun h => h ▸ hopen⟩

theorem Fits.splits (hf : part.Fits sc.history) (hv : sc.Valid) : part.Splits sc.world := by
  have hraw {q : PoolId} {k : WrapperId} {r : RawId} (hw : .wrapped q k r ∈ sc.history) :
      part.raws r = part.hasPool q := hf.opened _ _ (hv.owned.opened_of_wrapped hw)
  constructor
  · intro h x hx
    obtain ⟨r, hw⟩ := hv.owned.wrapped_home hx
    exact hf.wrapped _ _ _ hw
  · intro h x r hx hr
    exact hraw (hv.owned.wrapped_of_stream h x r hx hr)
  · intro p X slot hslot
    obtain ⟨⟨-, x, hx, rfl, -⟩, -⟩ := hv.grounded.slots p X slot hslot
    obtain ⟨r, hw⟩ := hv.owned.wrapped_home hx
    exact hf.wrapped _ _ _ hw
  · intro p note hn
    obtain ⟨h, ⟨-, hw⟩, -⟩ := hv.mourned.queues p note hn
    exact hraw hw

/-! ## Sides -/

/-- The frame works for the part, or for something else. -/
def Side (part : Part) (b : Bool) : Frame → Prop
  | .receive p _ => part.hasPool p = b
  | .evict p note => part.hasPool p = b ∧ part.raws note.raw = b
  | .lookUp p _ => part.hasPool p = b
  | .opening p _ _ => part.hasPool p = b
  | .wrap p _ _ raw => part.hasPool p = b ∧ part.raws raw = b
  | .publish p _ _ h => part.hasPool p = b ∧ part.wrappers h = b
  | .discard h => part.wrappers h = b
  | .close raw _ _ _ => part.raws raw = b
  | .closing raw _ _ _ => part.raws raw = b
  | .drop h => part.wrappers h = b
  | .post home note => part.hasPool home = b ∧ part.raws note.raw = b
  | .retire p => part.hasPool p = b
  | .retiring p => part.hasPool p = b
  | .disconnect p => part.hasPool p = b
  | .flush notes => ∀ note ∈ notes, part.raws note.raw = b

/-- All frames are on a side, and so is what a turn hands out. -/
structure Sided (part : Part) (b : Bool) (turn : Turn σ) : Prop where
  frames : ∀ f ∈ turn.frames, part.Side b f
  gained : ∀ h ∈ turn.gained, part.wrappers h = b

namespace Sided

variable {rest : List Frame}

theorem finish {log : List LogEvent} {answer : Answer}
    (hrest : ∀ f ∈ rest, part.Side b f)
    (hanswer : ∀ h, answer = .acquired (.ok h) → part.wrappers h = b) :
    part.Sided b (w.finish rest answer log) := by
  refine ⟨hrest, fun h hh => hanswer h ?_⟩
  unfold World.finish Turn.gained at hh
  by_cases hidle : isIdle rest
  · simp only [hidle, if_true] at hh
    split at hh
    · next k heq =>
      cases heq
      rw [List.mem_singleton.1 hh]
    · cases hh
  · simp [hidle] at hh

theorem goOn {world : World σ} {log : List LogEvent} {f : Frame}
    (hf : part.Side b f) (hrest : ∀ f ∈ rest, part.Side b f) :
    part.Sided b ({ world, frames := f :: rest, log } : Turn σ) :=
  ⟨List.forall_mem_cons.2 ⟨hf, hrest⟩, by simp [Turn.gained]⟩

/-- What a thread does keeps to the side that it is on. A pool's queue and slots have what is the
pool's own, and so do its wrappers. -/
theorem of_yields (hs : part.Splits w) (hF : ∀ f ∈ F, part.Side b f) (h : w.Yields F turn)
    (hfit : part.Fits (turn.events w F)) : part.Sided b turn := by
  cases F with
  | nil => cases h
  | cons f rest =>
    obtain ⟨hf, hrest⟩ := List.forall_mem_cons.1 hF
    cases h with
    | drained | openFailed | dropped | closed | posted | retired | flushed =>
      exact .finish hrest (by simp)
    | @received p n _ note notes hq =>
      have hnote := (hs.queues p note (hq ▸ List.mem_cons_self)).trans hf
      exact .goOn ⟨hf, hnote⟩ (List.forall_mem_cons.2 ⟨hf, hrest⟩)
    | found hX hl =>
      refine .finish hrest fun k hk => ?_
      cases hk
      exact (hs.slots _ _ _ hX).trans hf
    | @opened p X observed =>
      have hnew := hfit.opened p w.raws.length (by simp [Turn.events])
      exact .goOn ⟨hf, hnew.trans hf⟩ hrest
    | @wrapped p X observed raw =>
      have hnew := hfit.wrapped p w.wrappers.length raw (by simp [Turn.events])
      exact .goOn ⟨hf.1, hnew.trans hf.1⟩ hrest
    | published =>
      refine .finish hrest fun k hk => ?_
      cases hk
      exact hf.2
    | lost => exact .goOn hf.2 (List.forall_mem_cons.2 ⟨hf.1, hrest⟩)
    | unwrapped hx hone hr =>
      have hraw := (hs.streams _ _ _ hx hr).trans (hs.wrappers _ _ hx).symm
      exact .goOn (hraw.trans hf) hrest
    | died hx hone hr =>
      have hhome := (hs.wrappers _ _ hx).symm.trans hf
      exact .goOn ⟨hhome, (hs.streams _ _ _ hx hr).trans hhome⟩ hrest
    | disconnected => exact .goOn (fun note hn => (hs.queues _ note hn).trans hf) hrest
    | flushing =>
      obtain ⟨hnote, hnotes⟩ := List.forall_mem_cons.1 hf
      exact .goOn hnote (List.forall_mem_cons.2 ⟨hnotes, hrest⟩)
    | evicted | releasedInline => exact .goOn hf.2 hrest
    | missed | shared | closing | retiring => exact .goOn hf hrest

end Sided

/-! ## On the pool's side -/

theorem isIdle_map (part : Part) (F : List Frame) : isIdle (F.map part.frame) = isIdle F := by
  cases F with
  | nil => rfl
  | cons f F => cases f <;> rfl

theorem turn_finish (part : Part) (w : World σ) (rest : List Frame) (answer : Answer)
    (log : List LogEvent) : part.turn (w.finish rest answer log)
      = (part.world w).finish (rest.map part.frame) (part.answer answer) log := by
  unfold Part.turn World.finish
  rw [isIdle_map]
  dsimp only
  split <;> rfl

theorem gained_turn (part : Part) (turn : Turn σ) :
    (part.turn turn).gained = turn.gained.map part.wrapper := by
  unfold Turn.gained Part.turn
  cases turn.answer with
  | none => rfl
  | some answer =>
    cases answer with
    | acquired result => cases result <;> rfl
    | _ => rfl

/-- What the part shows of a turn is a turn of what it shows of the frames. -/
structure Shows (part : Part) (w : World σ) (F : List Frame) (turn : Turn σ)
    (shown : Option (Turn σ)) : Prop where
  shown_eq : shown = some (part.turn turn)
  events_eq : (turn.events w F).filterMap part.event?
    = (part.turn turn).events (part.world w) (F.map part.frame)

/-- What the part shows of an action of its own is an action of what it shows of the frames. -/
theorem yields_own (hs : part.Splits w) (hF : ∀ f ∈ F, part.Side true f) (h : w.step F = some turn)
    (hfit : part.Fits (turn.events w F)) :
    (part.world w).Yields (F.map part.frame) (part.turn turn) := by
  cases F with
  | nil => cases h
  | cons f rest =>
    obtain ⟨hf, -⟩ := List.forall_mem_cons.1 hF
    cases World.yields_step h with
    | drained hq =>
      obtain rfl := hasPool_iff.1 hf
      rw [turn_finish]
      exact .drained (by rw [pending_world, hq]; rfl)
    | received hq =>
      obtain rfl := hasPool_iff.1 hf
      rw [Part.turn, world_setQueue]
      exact .received (by rw [pending_world, hq]; rfl)
    | evicted hr =>
      obtain rfl := hasPool_iff.1 hf.1
      rw [Part.turn, world_evict]
      exact @World.Yields.evicted _ _ _ (part.note _) _ _ (by rw [entry_slot?_world]; exact hr)
    | found hX hl =>
      obtain rfl := hasPool_iff.1 hf
      have hmine : part.wrappers _ = true := (hs.slots _ _ _ hX).trans hf
      rw [turn_finish, world_retain hmine]
      exact .found (by rw [slot?_world, hX]; rfl) (by rw [isLive_world hmine]; exact hl)
    | @missed p X _ hdead =>
      obtain rfl := hasPool_iff.1 hf
      have hmissed : (part.world w).Yields (.lookUp 0 X :: rest.map part.frame) _ :=
        .missed fun slot' hslot' => by
          rw [slot?_world] at hslot'
          obtain ⟨slot, hslot, rfl⟩ := Option.map_eq_some_iff.1 hslot'
          rw [isLive_world ((hs.slots _ _ _ hslot).trans hf)]
          exact hdead slot hslot
      rw [entry_slot?_world] at hmissed
      exact hmissed
    | @wrapped p X observed raw =>
      obtain rfl := hasPool_iff.1 hf.1
      have hnew := (hfit.wrapped _ w.wrappers.length raw (by simp [Turn.events])).trans hf.1
      -- What is made last in the world is made last in the part, under a number of its own.
      have hwrapped : (part.world w).Yields
          (.wrap 0 X observed (part.raw raw) :: rest.map part.frame) _ := .wrapped
      rw [next_world, ← world_wrap hnew, length_wrappers] at hwrapped
      exact hwrapped
    | published hslots =>
      obtain rfl := hasPool_iff.1 hf.1
      rw [turn_finish, world_setSlots, ← entry_world hf.2]
      exact .published (by rw [publish?_world hf.2, hslots]; rfl)
    | lost hslots =>
      obtain rfl := hasPool_iff.1 hf.1
      rw [← entry_world hf.2]
      exact .lost (by rw [publish?_world hf.2, hslots]; rfl)
    | unwrapped hx hone hr =>
      rw [Part.turn, world_giveUp hf]
      exact .unwrapped (x := part.wrapperOf _) (by rw [getElem?_wrappers hf, hx]; rfl) hone
        (by rw [wrapperOf, hr]; rfl)
    | shared hinto => exact .shared (by rw [intoRaw?_world hf, hinto]; rfl)
    | died hx hone hr =>
      rw [Part.turn, world_giveUp hf]
      exact .died (x := part.wrapperOf _) (by rw [getElem?_wrappers hf, hx]; rfl) hone
        (by rw [wrapperOf, hr]; rfl)
    | dropped hw =>
      rw [turn_finish]
      exact .dropped (by rw [release_world hf, hw]; rfl)
    | closing =>
      rw [Part.turn, world_updateRaw hf]
      exact .closing
    | posted hq =>
      obtain rfl := hasPool_iff.1 hf.1
      rw [turn_finish, world_setQueue, List.map_append]
      exact .posted (by rw [queue_world, hq]; rfl)
    | releasedInline hq =>
      obtain rfl := hasPool_iff.1 hf.1
      exact @World.Yields.releasedInline _ _ _ (part.note _) _ (by rw [queue_world, hq]; rfl)
    | retiring => exact .retiring
    | disconnected =>
      obtain rfl := hasPool_iff.1 hf
      have hdisconnected :
          (part.world w).Yields (.disconnect 0 :: rest.map part.frame) _ := .disconnected
      rw [pending_world, ← world_disconnect] at hdisconnected
      exact hdisconnected
    | flushed =>
      rw [turn_finish]
      exact .flushed
    | flushing => exact @World.Yields.flushing _ _ (part.note _) _ _
    | openFailed | opened | closed | retired => cases h

/-- What has happened is the same, too. -/
theorem events_own (hF : ∀ f ∈ F, part.Side true f) (h : w.Yields F turn)
    (hfit : part.Fits (turn.events w F)) : (turn.events w F).filterMap part.event?
      = (part.turn turn).events (part.world w) (F.map part.frame) := by
  cases F with
  | nil => rfl
  | cons f rest =>
    obtain ⟨hf, -⟩ := List.forall_mem_cons.1 hF
    cases f with
    | receive p n =>
      obtain rfl := hasPool_iff.1 hf
      simp only [Turn.events, List.map_cons, frame, pending_world]
      cases w.pending part.pool <;> simp [event?, hasPool]
    | lookUp p X =>
      simp only [Side] at hf
      simp only [Turn.events, List.map_cons, frame, Part.turn]
      rcases turn.answer with _ | ⟨_ | k⟩ | _ | _ <;> simp [event?, hf, answer, Except.map]
    | opening p X observed =>
      simp only [Side] at hf
      cases h with
      | openFailed => simp [Turn.events, frame, Part.turn]
      | opened state =>
        have hraw := (hfit.opened p w.raws.length (by simp [Turn.events])).trans hf
        simp [Turn.events, frame, Part.turn, world_addRaw hraw, event?, hf, length_raws]
    | wrap | close | closing =>
      simp only [Side] at hf
      simp [Turn.events, frame, event?, hf, length_wrappers]
    | publish p X observed k =>
      simp only [Side] at hf
      simp only [Turn.events, List.map_cons, frame, Part.turn]
      rcases turn.answer with _ | ⟨_ | k⟩ | _ | _ <;> simp [event?, hf, answer, Except.map]
    | post home note =>
      obtain rfl := hasPool_iff.1 hf.1
      simp only [Turn.events, List.map_cons, frame, queue_world]
      cases w.pools[part.pool]?.bind Pool.queue <;> simp [event?, hasPool]
    | disconnect p =>
      obtain rfl := hasPool_iff.1 hf
      simp [Turn.events, frame, event?, hasPool, pending_world, note]
    | _ => rfl

/-- An opener that is at work for the part gives the part the same answer. -/
theorem opened_own {rest : List Frame} {X : Identity} {observed : Option Entry}
    {result : Except IoError σ} (hp : part.hasPool p)
    (hfit : part.Fits (turn.events w (.opening p X observed :: rest)))
    (h : w.opened (.opening p X observed :: rest) result = some turn) :
    (part.world w).opened (.opening 0 X observed :: rest.map part.frame) result
      = some (part.turn turn) := by
  cases result with
  | error e =>
    cases h
    simp only [World.opened, turn_finish]
    rfl
  | ok state =>
    simp only [World.opened, Option.some.injEq] at h
    subst h
    have hraw := (hfit.opened p w.raws.length (by simp [Turn.events])).trans hp
    simp only [World.opened, Part.turn, World.snd_addRaw, length_raws, world_addRaw hraw]
    rfl

theorem act_own {a : Act σ} (hs : part.Splits w) (hF : ∀ f ∈ F, part.Side true f)
    (h : a.turn? w F = some turn) (hfit : part.Fits (turn.events w F)) :
    part.Shows w F turn (a.turn? (part.world w) (F.map part.frame)) := by
  refine ⟨?_, events_own hF (Act.yields_turn h) hfit⟩
  cases a with
  | turn t =>
    refine (yields_own hs hF h hfit).step ?_
    rw [isIdle_map]
    exact World.isIdle_of_step h
  | opened t result =>
    have hopened : w.opened F result = some turn := h
    unfold World.opened at hopened
    split at hopened
    · obtain ⟨hf, -⟩ := List.forall_mem_cons.1 hF
      exact opened_own hf hfit h
    · cases hopened
  | closed t error =>
    have hclosed : w.closed F error = some turn := h
    unfold World.closed at hclosed
    split at hclosed <;> cases hclosed
    obtain ⟨hf, -⟩ := List.forall_mem_cons.1 hF
    rw [turn_finish, world_updateRaw hf]
    rfl
  | retired t =>
    have hretired : w.retired F = some turn := h
    unfold World.retired at hretired
    split at hretired <;> cases hretired
    rw [turn_finish]
    rfl
  | _ => cases h

/-! ## On the other side -/

/-- The part does not show the turn. -/
structure Hides (part : Part) (w : World σ) (F : List Frame) (turn : Turn σ) : Prop where
  world_eq : part.world turn.world = part.world w
  events_eq : (turn.events w F).filterMap part.event? = []

/-- Whatever comes of it, it is another pool that has been asked. -/
theorem events_foreign (hF : ∀ f ∈ F, part.Side false f) :
    (turn.events w F).filterMap part.event? = [] := by
  cases F with
  | nil => rfl
  | cons f rest =>
    obtain ⟨hf, -⟩ := List.forall_mem_cons.1 hF
    cases f with
    | receive | lookUp | opening | publish | post =>
      simp only [Side] at hf
      simp only [Turn.events]
      split <;> simp [event?, hf]
    | wrap | close | closing | disconnect =>
      simp only [Side] at hf
      simp [Turn.events, event?, hf]
    | _ => rfl

theorem act_foreign (hs : part.Splits w) (hF : ∀ f ∈ F, part.Side false f)
    (h : w.Yields F turn) (hfit : part.Fits (turn.events w F)) : part.Hides w F turn := by
  refine ⟨?_, events_foreign hF⟩
  cases F with
  | nil => cases h
  | cons f rest =>
    obtain ⟨hf, -⟩ := List.forall_mem_cons.1 hF
    cases h with
    | received | disconnected => exact world_updatePool_of_not hf _
    | evicted | published | posted => exact world_updatePool_of_not hf.1 _
    | found hX hl => exact world_updateWrapper_of_not ((hs.slots _ _ _ hX).trans hf) _
    | unwrapped | died => exact world_updateWrapper_of_not hf _
    | dropped hw =>
      -- Whether or not it was the last reference, only the wrapper changes.
      obtain ⟨f, rfl⟩ := World.exists_of_release hw
      exact world_updateWrapper_of_not hf f
    | closing | closed => exact world_updateRaw_of_not hf _
    | @opened p X observed =>
      have hnew := hfit.opened p w.raws.length (by simp [Turn.events])
      exact world_addRaw_of_not (hnew.trans hf) _ _
    | @wrapped p X observed raw =>
      have hnew := hfit.wrapped p w.wrappers.length raw (by simp [Turn.events])
      exact (world_addWrapper_of_not (w := w.updatePool p _) (hnew.trans hf.1) _ _).trans
        (world_updatePool_of_not hf.1 _)
    | _ => rfl

end Part

end ReadPool
