import Mathlib
import ReadPool.Proofs.Routing
import ReadPool.Proofs.Solo
import ReadPool.Proofs.Stack
import ReadPool.Proofs.Stages

/-!
# One thread and one pool

A lone thread whose openers and closes call the pool again, as deep as they like. Of all that it has
to do only the frame on top can tell something: `Solitary.next` gives the step of each act together
with what it adds to the log.

Between the last drain of a pool and the end of its queue the opener goes, and may let the last
reference to a wrapper go. That death is left in the queue. Nobody can have replaced the wrapper
(`Unreplaced`), for nobody acquires from the pool any more.
-/

namespace ReadPool

/-- There is one thread and one pool; openers and closes may call what they like. -/
def Moment.isSolitary (m : Moment σ) : Bool :=
  match m.act with
  | .spawn => false
  | .newPool _ => false
  | _ => true

/-- The death with this raw handle is posted while the opener of its pool is on its way out. -/
def Moment.postsLate (raw : RawId) (m : Moment σ) : Bool :=
  match m.frames with
  | .post 0 note :: below => note.raw = raw && below.contains (.retiring 0)
  | _ => false

/-- What the frame does may be logged. -/
def Frame.isTelling : Frame → Bool
  | evict _ _ => true
  | publish _ _ _ _ => true
  | post _ _ => true
  | closing _ _ _ _ => true
  | _ => false

/-- The pool has drained for the last time: its opener is on its way out, or its queue ends next. -/
def LastDrained (frames : List Frame) : Prop :=
  .retiring 0 ∈ frames ∨ frames.head? = some (.disconnect 0)

/-- No other entry has taken the slot of what is posted, nor of what a queue is to leave. -/
structure Scene.Unreplaced (sc : Scene σ) (frames : List Frame) : Prop where
  posted : ∀ note, .post 0 note ∈ frames → sc.world.isUp 0 → sc.Slotted note
  queued : LastDrained frames → ∀ note ∈ sc.world.pending 0, sc.Slotted note

section

variable {w w' : World σ} {frames rest : List Frame} {f : Frame} {turn : Turn σ} {a : Act σ}
  {H : Multiset WrapperId} {E : List Event}

/-! ## What the acts of a lone thread tell -/

/-- Frames of which none is about to change the table or to post a death. -/
theorem plain_frames (h : ∀ g ∈ frames, g.isBase ∨ g.isTelling = false) :
    collect Frame.attempt (frames : Multiset Frame) = 0 ∧
      ∀ p note, .evict p note ∉ frames ∧ .post p note ∉ frames := by
  refine ⟨Multiset.eq_zero_of_forall_notMem fun k hk => ?_,
    fun p note => ⟨fun hf => ?_, fun hf => ?_⟩⟩
  · obtain ⟨g, hg, hk⟩ := mem_collect.1 hk
    cases g with
    | publish => simpa [Frame.isBase, Frame.isTelling] using h _ hg
    | _ => simp [Frame.attempt] at hk
  · simpa [Frame.isBase, Frame.isTelling] using h _ hf
  · simpa [Frame.isBase, Frame.isTelling] using h _ hf

theorem told_eq_nil (h : w.Yields (f :: rest) turn) (hf : f.isTelling = false) (e : Entry) :
    told e turn.log = [] := by
  cases h with
  | evicted | published | lost | closed | posted | releasedInline => cases hf
  | openFailed => simp [World.finish, LogEvent.entry?]
  | _ => rfl

/-- Only a queue that ends leaves deaths. -/
theorem isLeft_events (h1 : w.pools.length = 1) (hf : f ≠ .disconnect 0) (raw : RawId) :
    isLeft raw (turn.events w (f :: rest) ++ E) = isLeft raw E := by
  have hnone : isLeft raw (turn.events w (f :: rest)) = false := by
    cases f with
    | disconnect p =>
      -- There is no other pool, and so no other queue.
      have hp : w.pools[p]? = none :=
        List.getElem?_eq_none (h1 ▸ Nat.one_le_iff_ne_zero.2 fun h0 => hf (h0 ▸ rfl))
      simp [Turn.events, isLeft, World.pending, hp]
    | receive | lookUp | opening | publish | post =>
      simp only [Turn.events]
      split <;> rfl
    | _ => rfl
  rw [isLeft, List.any_append, ← isLeft, ← isLeft, hnone, Bool.false_or]

/-- Only a close that is at work can end. -/
theorem closed_notMem_events (hf : f.isTelling = false) {raw : RawId} :
    .closed raw ∉ turn.events w (f :: rest) := by
  cases f with
  | closing => cases hf
  | publish => cases hf
  | post => cases hf
  | receive p n => simp only [Turn.events]; split <;> simp
  | lookUp p X => simp only [Turn.events]; split <;> simp
  | opening p X observed => simp only [Turn.events]; split <;> simp
  | _ => simp [Turn.events]

open Scene in
/-- What the frame on top does is silent, unless it is one that may tell or ends the queue. -/
theorem silent_turn (hF : Ordered (f :: rest)) (h1 : w.pools.length = 1) (hf : f.isTelling = false)
    (hd : f ≠ .disconnect 0) (h : w.Yields (f :: rest) turn)
    (hs : Step ⟨w, (f :: rest : List Frame), H, E⟩ ⟨turn.world, turn.frames, turn.gained + H,
      turn.events w (f :: rest) ++ E⟩) :
    Silent ⟨w, (f :: rest : List Frame), H, E⟩ ⟨turn.world, turn.frames, turn.gained + H,
      turn.events w (f :: rest) ++ E⟩ := by
  obtain ⟨hattempt, hplain⟩ := plain_frames
    (List.forall_mem_cons.2 ⟨.inr hf, fun g hg => .inl (hF.isBase g hg)⟩)
  refine .of_base hs hattempt (fun p note => (hplain p note).1)
    (fun p note hp => absurd hp (hplain p note).2) (h.isUp_iff hd).2 (fun raw hc => ?_)
    (isLeft_events h1 hd)
  exact (List.mem_append.1 hc).resolve_left (closed_notMem_events hf)

open Scene in
theorem logs_evict {p : PoolId} {note : Note} (hup : w.isUp p) (h1 : w.pools.length = 1)
    (h : w.Yields (.evict p note :: rest) turn) :
    Logs ⟨w, (.evict p note :: rest : List Frame), H, E⟩
      ⟨turn.world, turn.frames, turn.gained + H, turn.events w (.evict p note :: rest) ++ E⟩
      turn.log := by
  obtain rfl : p = 0 := Nat.lt_one_iff.1 (h1 ▸ World.lt_length_of_isUp hup)
  cases h with
  | evicted hrem =>
    simpa [Turn.events, Turn.gained] using Logs.evict (F := rest) (H := H) (E := E) hup hrem

open Scene in
theorem logs_publish {p : PoolId} {X : Identity} {observed : Option Entry} {k : WrapperId}
    (hv : Valid ⟨w, (.publish p X observed k :: rest : List Frame), H, E⟩)
    (hd : Delivers (.publish p X observed k :: rest))
    (hattempt : collect Frame.attempt (rest : Multiset Frame) = 0)
    (hlast : k + 1 = w.wrappers.length) (h1 : w.pools.length = 1)
    (h : w.Yields (.publish p X observed k :: rest) turn) :
    Logs ⟨w, (.publish p X observed k :: rest : List Frame), H, E⟩
      ⟨turn.world, turn.frames, turn.gained + H,
        turn.events w (.publish p X observed k :: rest) ++ E⟩ turn.log := by
  obtain ⟨pool, hp⟩ := exists_pool hv (p := p) (by simp [Frame.acquiring])
  obtain rfl : p = 0 := Nat.lt_one_iff.1 (h1 ▸ (List.getElem?_eq_some_iff.1 hp).1)
  obtain ⟨-, x, hx, -, -⟩ := hv.grounded.frames (.publish 0 X observed k) (by simp)
  have hentry : w.entry k = x.entry := World.entry_eq hx
  cases h with
  | lost hs =>
    have hne := (World.publish?_eq_none_iff hp).1 hs
    simpa [Turn.events, Turn.gained, hentry] using
      Logs.lose (F := rest) (H := H) (E := E) hattempt hlast hx hne
  | published hs =>
    -- An answer that is not awaited below goes to the caller, who then has the reference.
    have hidle : isIdle rest := hd.1 (by simp [Frame.acquiring])
    have hs := World.publish?_eq hp hx ▸ hs
    simpa [Turn.events, Turn.gained, World.finish, hidle, hentry] using
      Logs.publish (F := rest) (H := H) (E := E) hattempt hlast hx hp hs

open Scene in
/-- A death is posted in silence, unless it finds no pool. -/
theorem logs_post {home : PoolId} {note : Note}
    (hv : Valid ⟨w, (.post home note :: rest : List Frame), H, E⟩) (hbase : ∀ g ∈ rest, g.isBase)
    (h1 : w.pools.length = 1) (h : w.Yields (.post home note :: rest) turn)
    (hs : Step ⟨w, (.post home note :: rest : List Frame), H, E⟩ ⟨turn.world, turn.frames,
      turn.gained + H, turn.events w (.post home note :: rest) ++ E⟩) :
    Logs ⟨w, (.post home note :: rest : List Frame), H, E⟩
      ⟨turn.world, turn.frames, turn.gained + H, turn.events w (.post home note :: rest) ++ E⟩
      turn.log := by
  obtain ⟨hattempt, hplain⟩ := plain_frames fun g hg => .inl (hbase g hg)
  obtain ⟨k, hd⟩ := hv.mourned.frames (.post home note) (by simp)
  obtain ⟨x, hx, rfl, -⟩ := id hd.1.1
  have hup' : turn.world.isUp 0 ↔ w.isUp 0 := h.isUp_iff (by simp)
  cases h with
  | releasedInline hq =>
    rw [hv.home_eq_zero h1 hx] at hq ⊢
    simpa [Turn.events, hq, Turn.gained] using Logs.postInline (F := rest) (H := H) (E := E) hq
  | posted hq =>
    have hup : w.isUp x.home := by simp [World.isUp, hq]
    refine .silent (.of_base hs (by simpa [Frame.attempt] using hattempt) ?_ ?_ hup'.2 ?_
      (isLeft_events h1 (by simp))) fun _ => rfl
    · intro p note hf
      exact (hplain p note).1 (by simpa using hf)
    · intro p note hf
      rcases List.mem_cons.1 (Multiset.mem_coe.1 hf) with heq | hf
      · cases heq
        exact hup
      · exact absurd hf (hplain p note).2
    · intro raw hc
      simpa [Turn.events, hq] using hc

open Scene in
/-- A queue ends in silence, and leaves what was not replaced. -/
theorem logs_disconnect (hbase : ∀ g ∈ rest, g.isBase)
    (hu : opensOf 0 E < 2 ^ 64 →
      Unreplaced ⟨w, (.disconnect 0 :: rest : List Frame), H, E⟩ (.disconnect 0 :: rest))
    (h : w.Yields (.disconnect 0 :: rest) turn) :
    Logs ⟨w, (.disconnect 0 :: rest : List Frame), H, E⟩
      ⟨turn.world, turn.frames, turn.gained + H, turn.events w (.disconnect 0 :: rest) ++ E⟩
      turn.log := by
  obtain ⟨-, hplain⟩ := plain_frames fun g hg => .inl (hbase g hg)
  cases h with
  | disconnected =>
    simpa [Turn.events, Turn.gained] using Logs.disconnect (F := rest) (H := H) (E := E)
      (fun note => ⟨(hplain 0 note).2, (hplain 0 note).1⟩) fun hp => (hu hp).queued (.inr rfl)

open Scene in
/-- What goes on by a lone thread is a step, with what it tells. -/
theorem logs_turn (hv : Valid ⟨w, frames, H, E⟩) (hd : Delivers frames)
    (hF : Ordered frames) (hr : w.Ready frames) (h1 : w.pools.length = 1)
    (hu : opensOf 0 E < 2 ^ 64 → Unreplaced ⟨w, frames, H, E⟩ frames)
    (h : w.Yields frames turn) :
    Logs ⟨w, frames, H, E⟩ ⟨turn.world, turn.frames, turn.gained + H, turn.events w frames ++ E⟩
      turn.log := by
  have hstep : Step ⟨w, frames, H, E⟩
      ⟨turn.world, turn.frames, turn.gained + H, turn.events w frames ++ E⟩ := by
    have hv' : Valid ⟨w, frames + (0 : Multiset Frame), H, E⟩ := by simpa using hv
    simpa using scene_turn hv' hd h
  cases frames with
  | nil => cases h
  | cons f rest =>
    have hbase := hF.isBase
    cases f with
    | evict p note => exact logs_evict hr h1 h
    | publish p X observed k =>
      exact logs_publish hv hd (plain_frames fun g hg => .inl (hbase g hg)).1 hr h1 h
    | post home note => exact logs_post hv hbase h1 h hstep
    | closing raw X entry cause =>
      cases h with
      | closed error =>
        change Logs _ _ (World.closeReport X entry cause error)
        simpa [Turn.events] using Logs.closed (F := rest) (H := H) (E := E) error
    | disconnect p =>
      by_cases hp : p = 0
      · subst hp
        exact logs_disconnect hbase hu h
      · have hd : Frame.disconnect p ≠ .disconnect 0 := by simpa using hp
        exact .silent (silent_turn hF h1 rfl hd h hstep) (told_eq_nil h rfl)
    | _ => exact .silent (silent_turn hF h1 rfl (by simp) h hstep) (told_eq_nil h rfl)

/-! ## What is left in a queue -/

/-- The drain before the opener goes is the last. -/
theorem lastDrained_before (hF : Ordered frames) (h : w.Yields frames turn)
    (hlast : LastDrained turn.frames) :
    .retiring 0 ∈ frames ∨ frames.head? = some (.retire 0) := by
  cases h with
  | @retiring p rest =>
    by_cases hp : p = 0
    · exact .inr (hp ▸ rfl)
    · exact .inl (List.mem_cons_of_mem _ (by simpa [LastDrained, Ne.symm hp] using hlast))
  | drained | found | openFailed | published | dropped | closed | posted | retired | flushed =>
    rcases hlast with hret | hhead
    · exact .inl (List.mem_cons_of_mem _ hret)
    · -- What stands on the end of a queue is the frame of the opener.
      cases (hF.1.retires 0).2 hhead
      all_goals exact .inl List.mem_cons_self
  | _ => exact .inl (List.mem_cons_of_mem _ (by simpa [LastDrained] using hlast))

open Scene in
/-- What is in the queue after the last drain is posted while the opener is on its way out. -/
theorem pending_before (hF : Ordered frames) (hr : w.Ready frames) (h : w.Yields frames turn)
    (hs : Step ⟨w, frames, H, E⟩ ⟨turn.world, turn.frames, turn.gained + H,
      turn.events w frames ++ E⟩) (hlast : LastDrained turn.frames) {note : Note}
    (hn : note ∈ turn.world.pending 0) :
    .retiring 0 ∈ frames ∧ (note ∈ w.pending 0 ∨ .post 0 note ∈ frames) := by
  rcases lastDrained_before hF h hlast with hret | hhead
  · exact ⟨hret, (hs.mem_pending hn).imp_right And.left⟩
  · -- The drain has just found the queue empty.
    obtain ⟨rest, rfl⟩ := List.head?_eq_some_iff.1 hhead
    have hnil : w.pending 0 = [] := hr
    cases h with
    | retiring => simp [hnil] at hn

namespace Scene.Unreplaced

/-- A death comes to be posted when a published wrapper dies. -/
theorem posted_yields (hv : Valid ⟨w, frames, H, E⟩) (hp : opensOf 0 E < 2 ^ 64)
    (hF : Ordered frames) (h : w.Yields frames turn) {note : Note}
    (hpost : .post 0 note ∈ turn.frames) (hup : turn.world.isUp 0) :
    (turn.world.slot? 0 note.identity).map Slot.entry = some note.entry := by
  have below {f : Frame} {rest : List Frame} (hF : Ordered (f :: rest)) :
      .post 0 note ∉ rest := fun hm => by cases hF.isBase _ hm
  cases h with
  | @died k rest x raw hx hone hraw =>
    rcases List.mem_cons.1 hpost with heq | hrest
    · obtain ⟨hhome, rfl⟩ := Frame.post.inj heq
      have hpub : .published k ∈ E := by
        by_contra hpub
        exact (hv.referenced.hidden k hpub).2.1 (by simp [Frame.dropped])
      have hslot := hv.tabled.live 0 k x hp hup ⟨hx, hhome.symm, hpub, by omega⟩
      simpa using congrArg (Option.map Slot.entry) hslot
    · exact absurd hrest (below hF)
  | _ => exact absurd hpost (by simp [below hF])

theorem yields (hv : Valid ⟨w, frames, H, E⟩) (h1 : w.pools.length = 1) (hp : opensOf 0 E < 2 ^ 64)
    (hF : Ordered frames) (hr : w.Ready frames) (h : w.Yields frames turn)
    (hs : Step ⟨w, frames, H, E⟩ ⟨turn.world, turn.frames, turn.gained + H,
      turn.events w frames ++ E⟩) (hu : Unreplaced ⟨w, frames, H, E⟩ frames) :
    Unreplaced ⟨turn.world, turn.frames, turn.gained + H, turn.events w frames ++ E⟩
      turn.frames where
  posted note hpost hup := posted_yields hv hp hF h hpost hup
  queued hlast note hn := by
    obtain ⟨hret, hbefore⟩ := pending_before hF hr h hs hlast hn
    have hup' := World.isUp_of_mem_pending hn
    have hup : w.isUp 0 := hs.isUp_of_isUp hup' (h1 ▸ Nat.one_pos)
    have hslotted : Slotted ⟨w, frames, H, E⟩ note :=
      hbefore.elim (hu.queued (.inl hret) note) fun hpost => hu.posted note hpost hup
    obtain ⟨slot, hslot, hent⟩ := Option.map_eq_some_iff.1 hslotted
    rcases hs.slot?_next hslot with hkept | ⟨note', hf, -⟩ | ⟨Y, k, hf, -⟩ | ⟨-, hdown⟩
    · rw [Slotted, hkept, Option.map_some, hent]
    · exact absurd hf (hF.notMem_of_retiring hret rfl rfl)
    · exact absurd hf (hF.notMem_of_retiring hret rfl rfl)
    · exact absurd hup' hdown

end Scene.Unreplaced

end

namespace System

variable {s₀ s s' : System σ} {ms : List (Moment σ)} {a : Act σ}

theorem lastDrained_call {c : Call} {frames : List Frame} (hc : s.admits c)
    (hlast : LastDrained (c.frames ++ frames)) : LastDrained frames := by
  cases c with
  | acquire | purge | drop | dropPool =>
    exact .inl (by simpa [LastDrained, Call.frames] using hlast)
  | _ => cases hc

/-- The only thread has these frames, as they come to stand on each other. -/
structure Lone (s : System σ) (frames : List Frame) : Prop where
  threads : s.threads = [frames]
  ordered : Ordered frames
  ready : s.world.Ready frames
  unreplaced : opensOf 0 s.history < 2 ^ 64 → s.scene.Unreplaced frames

/-- One thread and one pool, with the stack of the thread in order. -/
structure Solitary (s : System σ) : Prop where
  sound : Sound s
  pools : s.world.pools.length = 1
  thread : ∃ frames, Lone s frames

/-- The only thread, which has the frames `F`, goes on. -/
structure LoneTurn (s : System σ) (a : Act σ) (s' : System σ) (F : List Frame) (turn : Turn σ) :
    Prop where
  frames : (⟨s, a⟩ : Moment σ).frames = F
  turn? : (⟨s, a⟩ : Moment σ).turn? = some turn
  yields : s.world.Yields F turn
  threads : s'.threads = [turn.frames]
  before : s.scene = ⟨s.world, F, s.held, s.history⟩
  after : s'.scene = ⟨turn.world, turn.frames, turn.gained + (s.held : Multiset WrapperId),
    turn.events s.world F ++ s.history⟩

theorem LoneTurn.world {F : List Frame} {turn : Turn σ} (hg : LoneTurn s a s' F turn) :
    s'.world = turn.world :=
  congrArg Scene.world hg.after

theorem LoneTurn.step {F : List Frame} {turn : Turn σ} (hg : LoneTurn s a s' F turn)
    (hs : Sound s) (ha : s.next? a = some s') : Scene.Step ⟨s.world, F, s.held, s.history⟩
      ⟨turn.world, turn.frames, turn.gained + (s.held : Multiset WrapperId),
        turn.events s.world F ++ s.history⟩ :=
  hg.after ▸ hg.before ▸ (hs.scene_next ha).1

theorem Lone.exists_turn {frames : List Frame} (hl : Lone s frames) {t : ThreadId}
    (ht : a.thread? = some t) (ha : s.next? a = some s') : ∃ turn, LoneTurn s a s' frames turn := by
  obtain ⟨F, turn, hF, hturn, rfl, hm, hmt⟩ := System.exists_turn ht ha
  obtain ⟨rfl, rfl⟩ := eq_of_getElem? hl.threads hF
  have hthreads : (s.take 0 F turn).threads = [turn.frames] := by simp [take, hl.threads]
  refine ⟨turn, hm, hmt, Act.yields_turn hturn, hthreads, ?_, ?_⟩
  · rw [scene, System.frames_eq hl.threads]
  · rw [scene, System.frames_eq hthreads]
    simp [take]

namespace Solitary

theorem next_turn (hs : Solitary s) {t : ThreadId} (ht : a.thread? = some t)
    (ha : s.next? a = some s') :
    Solitary s' ∧ Scene.Logs s.scene s'.scene (⟨s, a⟩ : Moment σ).log := by
  obtain ⟨F, hl⟩ := hs.thread
  obtain ⟨turn, hg⟩ := hl.exists_turn ht ha
  have hv := hg.before ▸ hs.sound.valid
  have hu := hg.before ▸ hl.unreplaced
  refine ⟨⟨hs.sound.next ha, ?_, turn.frames, hg.threads, hl.ordered.yields hg.yields, ?_,
    fun hp => ?_⟩, ?_⟩
  · rw [hg.world, hg.yields.length_pools, hs.pools]
  · rw [hg.world]
    exact World.ready_turn hl.ordered hg.yields
  · have hp₀ := (hs.sound.scene_next ha).1.opensOf_le.trans_lt hp
    rw [hg.after]
    exact .yields hv hs.pools hp₀ hl.ordered hl.ready hg.yields (hg.step hs.sound ha) (hu hp₀)
  · rw [hg.before, hg.after, Moment.log, hg.turn?]
    exact logs_turn hv (hs.sound.delivers F (by simp [hl.threads])) hl.ordered hl.ready hs.pools hu
      hg.yields

/-- A call begins where nobody is about to do anything. -/
theorem next_call (hs : Solitary s) {t : ThreadId} {c : Call}
    (ha : s.next? (.call t c) = some s') :
    Solitary s' ∧ Scene.Logs s.scene s'.scene (⟨s, .call t c⟩ : Moment σ).log := by
  have hsound := hs.sound.next ha
  have hstep := (hs.sound.scene_next ha).1
  obtain ⟨F, hl⟩ := hs.thread
  obtain ⟨frames, ht, ha⟩ := Option.bind_eq_some_iff.1 ha
  obtain ⟨rfl, rfl⟩ := eq_of_getElem? hl.threads ht
  split at ha
  · next hc =>
    cases ha
    obtain ⟨hidle, hadm⟩ := Bool.and_eq_true_iff.1 hc
    have hframes := frames_eq hl.threads
    have hbase := hl.ordered.isBase_of_isIdle hidle
    obtain ⟨hattempt, hplain⟩ := plain_frames fun g hg => .inl (hbase g hg)
    have hcall : ∀ note, Frame.post 0 note ∉ c.frames := by
      cases c with
      | acquire | purge | drop | dropPool => simp [Call.frames]
      | _ => cases hadm
    have hordered : Ordered (c.frames ++ frames) :=
      hframes ▸ ordered_call (hframes ▸ hl.ordered) (hframes ▸ hidle) hadm
    refine ⟨⟨hsound, hs.pools, _, by simp [hl.threads], hordered, World.ready_call hadm _,
      fun hp => ⟨?_, ?_⟩⟩, .silent (.of_base hstep ?_ ?_ ?_ id ?_ fun _ => rfl) fun _ => rfl⟩
    · intro note hf
      exact absurd hf (by simp [hcall, (hplain 0 note).2])
    · exact fun hlast => (hl.unreplaced hp).queued (lastDrained_call hadm hlast)
    · simpa [scene, hframes] using hattempt
    · intro p note hf
      exact (hplain p note).1 (by simpa [scene, hframes] using hf)
    · intro p note hf
      exact absurd (by simpa [scene, hframes] using hf) (hplain p note).2
    · exact fun _ hc => hc
  · cases ha

theorem next_still (hs : Solitary s) (hstill : a.isStill) (ha : s.next? a = some s') :
    Solitary s' ∧ Scene.Logs s.scene s'.scene (⟨s, a⟩ : Moment σ).log := by
  obtain ⟨hthreads, hhistory, hpools, hlength⟩ := pools_eq_of_isStill hstill ha
  obtain ⟨F, hl⟩ := hs.thread
  have hframes : s'.frames = s.frames := by rw [System.frames, hthreads, System.frames]
  have hready : s'.world.Ready F := by
    have hready := hl.ready
    cases F with
    | nil => trivial
    | cons f rest => cases f <;> simp_all [World.Ready, World.isUp, World.pending]
  have hu (hp : opensOf 0 s'.history < 2 ^ 64) : s'.scene.Unreplaced F := by
    have hu := hl.unreplaced (hhistory ▸ hp)
    constructor
    · intro note hf hup
      have hslot := hu.posted note hf (by simpa [scene, World.isUp, hpools] using hup)
      simpa [Scene.Slotted, scene, World.slot?, hpools] using hslot
    · intro hlast note hn
      have hslot := hu.queued hlast note (by simpa [scene, World.pending, hpools] using hn)
      simpa [Scene.Slotted, scene, World.slot?, hpools] using hslot
  have hlog : (⟨s, a⟩ : Moment σ).log = [] := by
    cases a with
    | clone | closeReference | read => rfl
    | _ => cases hstill
  refine ⟨⟨hs.sound.next ha, hpools ▸ hs.pools, F, hthreads ▸ hl.threads, hl.ordered, hready, hu⟩,
    .silent (.of_still (hs.sound.scene_next ha).1 ?_ hpools hhistory hlength) fun _ => ?_⟩
  · simp [scene, hframes]
  · rw [hlog, told_nil]

theorem next (hs : Solitary s) (hm : (⟨s, a⟩ : Moment σ).isSolitary) (ha : s.next? a = some s') :
    Solitary s' ∧ Scene.Logs s.scene s'.scene (⟨s, a⟩ : Moment σ).log := by
  cases a with
  | spawn => cases hm
  | newPool config => cases hm
  | call t c => exact hs.next_call ha
  | turn t => exact hs.next_turn rfl ha
  | opened t result => exact hs.next_turn rfl ha
  | closed t error => exact hs.next_turn rfl ha
  | retired t => exact hs.next_turn rfl ha
  | clone k => exact hs.next_still rfl ha
  | closeReference k => exact hs.next_still rfl ha
  | read k f => exact hs.next_still rfl ha

/-- After the last drain, only what an opener lets go of comes into the queue. -/
theorem pending_next (hs : Solitary s) (hm : (⟨s, a⟩ : Moment σ).isSolitary)
    (ha : s.next? a = some s') {frames frames' : List Frame} (hl : Lone s frames)
    (hl' : Lone s' frames') (hlast : LastDrained frames') {note : Note}
    (hn : note ∈ s'.world.pending 0) :
    LastDrained frames ∧ note ∈ s.world.pending 0 ∨ (⟨s, a⟩ : Moment σ).postsLate note.raw := by
  have still (hstill : a.isStill) : LastDrained frames ∧ note ∈ s.world.pending 0 := by
    obtain ⟨hthreads, -, hpools, -⟩ := pools_eq_of_isStill hstill ha
    obtain rfl : frames' = frames := by simpa [hl.threads, hl'.threads] using hthreads
    exact ⟨hlast, by simpa [World.pending, hpools] using hn⟩
  have turn {t : ThreadId} (ht : a.thread? = some t) :
      LastDrained frames ∧ note ∈ s.world.pending 0 ∨ (⟨s, a⟩ : Moment σ).postsLate note.raw := by
    obtain ⟨turn, hg⟩ := hl.exists_turn ht ha
    obtain rfl : turn.frames = frames' := by simpa [hl'.threads] using hg.threads.symm
    obtain ⟨hret, hold | hpost⟩ :=
      pending_before hl.ordered hl.ready hg.yields (hg.step hs.sound ha) hlast (hg.world ▸ hn)
    · exact .inl ⟨.inl hret, hold⟩
    · obtain ⟨below, rfl⟩ := hl.ordered.eq_top hpost rfl
      right
      simpa [Moment.postsLate, hg.frames] using hret
  cases a with
  | spawn => cases hm
  | newPool config => cases hm
  | call t c =>
    obtain ⟨F, ht, ha⟩ := Option.bind_eq_some_iff.1 ha
    obtain ⟨rfl, rfl⟩ := eq_of_getElem? hl.threads ht
    split at ha
    · next hc =>
      cases ha
      obtain rfl : c.frames ++ F = frames' := by simpa [hl.threads] using hl'.threads
      exact .inl ⟨lastDrained_call (Bool.and_eq_true_iff.1 hc).2 hlast, hn⟩
    · cases ha
  | turn | opened | closed | retired => exact turn rfl
  | clone | closeReference | read => exact .inl (still rfl)

/-- What is left is in the queue when that ends. -/
theorem isLeft_next (hs : Solitary s) (ha : s.next? a = some s') {frames : List Frame}
    (hl : Lone s frames) {raw : RawId} (hleft : isLeft raw s'.history) :
    isLeft raw s.history ∨ LastDrained frames ∧ ∃ note ∈ s.world.pending 0, note.raw = raw := by
  cases ht : a.thread? with
  | none => exact .inl ((exists_call ht ha).1 ▸ hleft)
  | some t =>
    obtain ⟨turn, hg⟩ := hl.exists_turn ht ha
    have hyields := hg.yields
    rw [show s'.history = _ from congrArg Scene.history hg.after] at hleft
    cases frames with
    | nil => cases hyields
    | cons f rest =>
      by_cases hd : f = .disconnect 0
      · subst hd
        simp only [Turn.events, isLeft, List.singleton_append, List.any_cons, Bool.or_eq_true,
          List.contains_iff_mem, List.mem_map] at hleft
        exact hleft.symm.imp id fun h => ⟨.inr rfl, h⟩
      · exact .inl (isLeft_events hs.pools hd raw ▸ hleft)

theorem alone (config : Config) : Solitary (alone config : System σ) where
  sound := sound_alone config
  pools := rfl
  thread := ⟨[], rfl, trivial, trivial, fun _ =>
    ⟨fun _ h => (List.not_mem_nil h).elim, fun h => by simp [LastDrained] at h⟩⟩

end Solitary

end System

end ReadPool
