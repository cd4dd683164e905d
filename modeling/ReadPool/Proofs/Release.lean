import Mathlib
import ReadPool.Proofs.Reachable

/-!
# Each raw handle is released once

Whatever threads do, a raw handle is in one place, its close begins once, and only when nothing
references its wrapper any more. Once nothing is going on and no reference to a wrapper of a pool is
held, all that the pool has opened is closed, provided that somebody has drained it since the last
death, or that it is gone.
-/

namespace ReadPool

/-- The deaths that a frame carries. -/
def Frame.notes : Frame → List Note
  | post _ note => [note]
  | evict _ note => [note]
  | flush notes => notes
  | _ => []

namespace Scene

variable {sc : Scene σ}

theorem Owned.exists_place (ho : Owned sc) {raw : RawId} (hr : raw < sc.world.raws.length) :
    ∃ place, sc.places.filter (fun e => e.2 = raw) = {(place, raw)} := by
  have hc : (sc.places.filter fun e => raw = e.2).card = 1 := by
    rw [← Multiset.count_map, map_snd_places, ho.raws_eq]
    exact Multiset.count_eq_one_of_mem (Multiset.nodup_range _) (Multiset.mem_range.2 hr)
  obtain ⟨⟨place, raw'⟩, he⟩ := Multiset.card_eq_one.1 hc
  have hmem : (place, raw') ∈ sc.places.filter fun e => raw = e.2 := he ▸ Multiset.mem_singleton_self _
  obtain rfl : raw = raw' := (Multiset.mem_filter.1 hmem).2
  exact ⟨place, by simpa only [eq_comm] using he⟩

theorem Owned.lt_of_opened (ho : Owned sc) {p : PoolId} {raw : RawId}
    (h : .opened p raw ∈ sc.history) : raw < sc.world.raws.length := by
  rw [← Multiset.mem_range, ← ho.opens_eq, Multiset.mem_map]
  exact ⟨(p, raw), mem_collect.2 ⟨_, h, by simp [Event.opens]⟩, rfl⟩

theorem Owned.opened_of_wrapped (ho : Owned sc) {p : PoolId} {h : WrapperId} {raw : RawId}
    (hw : .wrapped p h raw ∈ sc.history) : .opened p raw ∈ sc.history := by
  have hopen : (p, raw) ∈ collect Event.opens sc.history := by
    rw [← ho.wraps_eq, Multiset.mem_add]
    exact .inl (mem_collect.2 ⟨_, hw, by simp [Event.wraps]⟩)
  obtain ⟨ev, hev, hm⟩ := mem_collect.1 hopen
  cases ev with
  | opened q raw' =>
    obtain ⟨rfl, rfl⟩ : p = q ∧ raw = raw' := by simpa [Event.opens] using hm
    exact hev
  | _ => simp [Event.opens] at hm

/-- A raw handle is opened for one pool. -/
theorem Owned.opened_inj (ho : Owned sc) {p q : PoolId} {raw : RawId}
    (hp : .opened p raw ∈ sc.history) (hq : .opened q raw ∈ sc.history) : p = q := by
  have hn : ((collect Event.opens sc.history).map Prod.snd).Nodup :=
    ho.opens_eq ▸ Multiset.nodup_range _
  rw [map_collect] at hn
  have := eq_of_mem_collect hn hp hq (b := raw) (by simp [Event.opens]) (by simp [Event.opens])
  cases this
  rfl

/-- A wrapper has been made by the pool that is its home. -/
theorem Owned.wrapped_home (ho : Owned sc) {h : WrapperId} {x : Wrapper}
    (hx : sc.world.wrappers[h]? = some x) : ∃ raw, .wrapped x.home h raw ∈ sc.history := by
  have hmem : h ∈ collect Event.wrappers sc.history :=
    ho.wrappers_eq ▸ Multiset.mem_range.2 (List.getElem?_eq_some_iff.1 hx).1
  obtain ⟨ev, hev, hm⟩ := mem_collect.1 hmem
  cases ev with
  | wrapped q k raw =>
    obtain rfl : h = k := by simpa [Event.wrappers] using hm
    obtain ⟨y, hy, rfl⟩ := ho.home_of_wrapped q h raw hev
    obtain rfl : y = x := Option.some.inj (hy.symm.trans hx)
    exact ⟨raw, hev⟩
  | _ => simp [Event.wrappers] at hm

theorem Owned.nodup_closes (ho : Owned sc) : (collect Event.closes sc.history).Nodup :=
  Multiset.nodup_of_le (Multiset.le_add_left _ _) ho.nodup_raws

theorem Owned.nodup_begins (ho : Owned sc) : (collect Event.begins sc.history).Nodup := by
  rw [ho.begins_eq]
  refine Multiset.nodup_of_le ?_ ho.nodup_raws
  rw [raws, add_assoc, add_assoc]
  exact add_le_add (collect_mono Frame.underClose_le _)
    ((Multiset.le_add_left _ _).trans (Multiset.le_add_left _ _))

/-- The wrapper that has left a raw handle is the one that it was put into. -/
theorem Due.wrapped (ho : Owned sc) {X : Identity} {entry : Entry} {raw : RawId}
    {cause : CloseCause} (hd : sc.Due ⟨X, entry, raw⟩ cause) {p : PoolId} {h : WrapperId}
    (hw : .wrapped p h raw ∈ sc.history) :
    sc.world.strong h = 0 ∧ (cause = .death ↔ .published h ∈ sc.history) := by
  cases cause with
  | death =>
    obtain ⟨q, k, ⟨hdead, hwk⟩, hpub⟩ := hd
    obtain ⟨-, rfl⟩ := ho.wrapped_inj hw hwk
    exact ⟨hdead.strong_eq_zero, by simp [hpub]⟩
  | lostRace =>
    obtain ⟨q, k, ⟨hdead, hwk⟩, hpub⟩ := hd
    obtain ⟨-, rfl⟩ := ho.wrapped_inj hw hwk
    exact ⟨hdead.strong_eq_zero, by simp [hpub]⟩

/-- The stream of a wrapper that is referenced is there, and its close has not begun. -/
theorem Valid.exists_open_stream (hv : Valid sc) {h : WrapperId} (hs : 0 < sc.world.strong h) :
    ∃ x raw r, sc.world.wrappers[h]? = some x ∧ x.stream = some raw ∧
      sc.world.raws[raw]? = some r ∧ r.phase = .opened ∧
      ∀ cause, .closing raw cause ∉ sc.history := by
  obtain ⟨x, raw, hx, -, hr⟩ := hv.referenced.exists_stream hs
  have hw := hv.owned.wrapped_of_stream h x raw hx hr
  have hbegun : ∀ cause, .closing raw cause ∉ sc.history := by
    intro cause hc
    obtain ⟨X, entry, hd⟩ := hv.mourned.begun raw cause hc
    exact Nat.ne_of_gt hs (hd.wrapped hv.owned hw).1
  have hb : raw ∉ collect Event.begins sc.history := by
    intro hb
    obtain ⟨ev, hev, hm⟩ := mem_collect.1 hb
    cases ev with
    | closing raw' cause =>
      obtain rfl : raw = raw' := by simpa [Event.begins] using hm
      exact hbegun cause hev
    | _ => simp [Event.begins] at hm
  rw [hv.owned.begins_eq, Multiset.mem_add, not_or] at hb
  have hlt : raw < sc.world.raws.length := by
    refine hv.owned.lt_of_mem_raws ?_
    simp [raws, World.mem_streams.2 ⟨h, x, hx, hr⟩]
  refine ⟨x, raw, _, hx, hr, List.getElem?_eq_getElem hlt, ?_, hbegun⟩
  rw [hv.phased raw _ (List.getElem?_eq_getElem hlt), phase, if_neg hb.2, if_neg hb.1]

/-- Where nothing is going on, what a pool has opened is in the stream of a wrapper that is held,
in its queue, or closed. -/
theorem Valid.place_of_opened (hv : Valid sc) (hF : sc.frames = 0) {p : PoolId} {raw : RawId}
    (ho : .opened p raw ∈ sc.history) :
    (∃ h x, h ∈ sc.held ∧ sc.world.wrappers[h]? = some x ∧ x.home = p ∧ x.stream = some raw) ∨
    (∃ note ∈ sc.world.pending p, note.raw = raw) ∨ .closed raw ∈ sc.history := by
  have hraw : raw ∈ sc.raws := by
    rw [hv.owned.raws_eq]
    exact Multiset.mem_range.2 (hv.owned.lt_of_opened ho)
  obtain ⟨h, hw⟩ : ∃ h, .wrapped p h raw ∈ sc.history := by
    have hopen : (p, raw) ∈ collect Event.opens sc.history :=
      mem_collect.2 ⟨_, ho, by simp [Event.opens]⟩
    rw [← hv.owned.wraps_eq, hF, collect_zero, add_zero] at hopen
    obtain ⟨ev, hev, hm⟩ := mem_collect.1 hopen
    cases ev with
    | wrapped q h raw' =>
      obtain ⟨rfl, rfl⟩ : p = q ∧ raw = raw' := by simpa [Event.wraps] using hm
      exact ⟨h, hev⟩
    | _ => simp [Event.wraps] at hm
  simp only [raws, hF, collect_zero, zero_add, Multiset.mem_add] at hraw
  rcases hraw with (hstream | hqueued) | hclosed
  · left
    obtain ⟨k, x, hx, hr⟩ := World.mem_streams.1 hstream
    obtain ⟨rfl, rfl⟩ := hv.owned.wrapped_inj hw (hv.owned.wrapped_of_stream k x raw hx hr)
    refine ⟨h, x, ?_, hx, rfl, hr⟩
    have hpos := (hv.referenced.stream_isSome h x hx).1 (by simp [hr])
    rw [← World.strong_eq hx, hv.referenced.strong_eq, hF] at hpos
    exact Multiset.count_pos.1 (by simpa using hpos)
  · right; left
    obtain ⟨q, note, hn, rfl⟩ := World.mem_queued.1 hqueued
    obtain ⟨k, ⟨-, hwk⟩, -⟩ := hv.mourned.queues q note hn
    obtain ⟨rfl, -⟩ := hv.owned.wrapped_inj hw hwk
    exact ⟨note, hn, rfl⟩
  · right; right
    obtain ⟨ev, hev, hm⟩ := mem_collect.1 hclosed
    cases ev with
    | closed raw' =>
      obtain rfl : raw = raw' := by simpa [Event.closes] using hm
      exact hev
    | _ => simp [Event.closes] at hm

end Scene

theorem count_closed (raw : RawId) (events : List Event) :
    events.count (.closed raw) = (collect Event.closes events).count raw := by
  induction events with
  | nil => rfl
  | cons ev events ih =>
    rw [collect_coe_cons, Multiset.count_add, List.count_cons, ih, add_comm]
    cases ev with
    | closed raw' => simp [Event.closes, Multiset.count_singleton, eq_comm (a := raw)]
    | _ => simp [Event.closes]

namespace System

variable {σ : Type*} {s : System σ}

theorem Reachable.closed_once (hs : s.Reachable) {p : PoolId} (hF : s.frames = [])
    (hh : ∀ h ∈ s.held, ∀ x, s.world.wrappers[h]? = some x → x.home ≠ p)
    (hp : ¬ s.world.isUp p ∨ caughtUp p s.history) {raw : RawId}
    (ho : .opened p raw ∈ s.history) : s.history.count (.closed raw) = 1 := by
  have hv := hs.valid
  rw [count_closed]
  refine Multiset.count_eq_one_of_mem hv.owned.nodup_closes (mem_collect.2 ?_)
  rcases hv.place_of_opened (congrArg _ hF) ho with ⟨h, x, hheld, hx, hhome, -⟩ | ⟨note, hn, -⟩ | hc
  · exact absurd hhome (hh h (Multiset.mem_coe.1 hheld) x hx)
  · rcases hp with hdown | hc
    · exact absurd (World.isUp_of_mem_pending hn) hdown
    · have hnil : s.world.pending p = [] := hv.drained p hc
      exact absurd (show note ∈ s.world.pending p from hn) (by simp [hnil])
  · exact ⟨_, hc, by simp [Event.closes]⟩

/-- Each raw handle that was opened is in one place. No close begins twice, and none while the
wrapper is referenced: until then the stream is there to be read. What is closed as a death was
published, and what lost its race was not. When nothing goes on any more and nobody holds a wrapper
of a pool, what the pool has opened is closed, once, if the pool is gone or was drained since the
last death. -/
theorem raw_handle_released_once (hs : s.Reachable) :
    (∀ p raw, .opened p raw ∈ s.history →
      ∃ place, s.scene.places.filter (fun e => e.2 = raw) = {(place, raw)}) ∧
    (collect Event.begins s.history).Nodup ∧
    (∀ a s' p h raw cause, s.next? a = some s' → .closing raw cause ∈ s'.history →
      .wrapped p h raw ∈ s.history →
      s.world.strong h = 0 ∧ (cause = .death ↔ .published h ∈ s.history)) ∧
    (∀ h, 0 < s.world.strong h → ∃ x raw r, s.world.wrappers[h]? = some x ∧
      x.stream = some raw ∧ s.world.raws[raw]? = some r ∧ r.phase = .opened ∧
      ∀ cause, .closing raw cause ∉ s.history) ∧
    (∀ h ∈ s.held, 0 < s.world.strong h) ∧
    (∀ note, (∃ f ∈ s.frames, note ∈ f.notes) ∨ (∃ p, note ∈ s.world.pending p) →
      ∃ p h, s.scene.Died p h note) ∧
    (∀ p, s.frames = [] → (∀ h ∈ s.held, ∀ x, s.world.wrappers[h]? = some x → x.home ≠ p) →
      ¬ s.world.isUp p ∨ caughtUp p s.history →
      ∀ raw, .opened p raw ∈ s.history → s.history.count (.closed raw) = 1) := by
  have hv := hs.valid
  refine ⟨fun p raw ho => hv.owned.exists_place (hv.owned.lt_of_opened ho), hv.owned.nodup_begins,
    ?_, fun h hpos => hv.exists_open_stream hpos,
    fun h hh => hv.referenced.strong_pos_of_held (Multiset.mem_coe.2 hh), ?_,
    fun p hF hh hp raw ho => hs.closed_once hF hh hp ho⟩
  · intro a s' p h raw cause ha hc hw
    rcases (hs.scene_next ha).mem_closing hc with hold | ⟨X, entry, hclose⟩
    · obtain ⟨X, entry, hd⟩ := hv.mourned.begun raw cause hold
      exact hd.wrapped hv.owned hw
    · exact Scene.Due.wrapped hv.owned (hv.mourned.frames _ hclose) hw
  · intro note hn
    rcases hn with ⟨f, hf, hn⟩ | ⟨p, hn⟩
    · have hj := hv.mourned.frames f (Multiset.mem_coe.2 hf)
      cases f with
      | post p note' => exact List.mem_singleton.1 hn ▸ ⟨p, hj⟩
      | evict p note' => exact List.mem_singleton.1 hn ▸ ⟨p, hj⟩
      | flush notes => exact hj note hn
      | _ => cases hn
    · exact ⟨p, hv.mourned.queues p note hn⟩

/-- Two threads race to open a file. Both let go of what they got, and one of them purges. -/
def racing : List (Act Unit) :=
  [.spawn, .spawn, .newPool {}, .call 0 (.acquire 0 ⟨.ofString "/a"⟩), .turn 0, .turn 0,
    .call 1 (.acquire 0 ⟨.ofString "/a"⟩), .turn 1, .turn 1, .opened 0 (.ok ()), .opened 1 (.ok ()),
    .turn 0, .turn 1, .turn 0, .turn 1, .turn 1, .turn 1, .closed 1 none, .turn 1,
    .call 0 (.drop 0), .turn 0, .call 0 (.drop 0), .turn 0, .turn 0, .call 1 (.purge 0), .turn 1,
    .turn 1, .turn 1, .closed 1 (some .busy), .turn 1]

theorem isSome_run_racing : (({} : System Unit).run? racing).isSome := by decide +kernel

/-- Everything is over. -/
def raced : System Unit := (({} : System Unit).run? racing).get isSome_run_racing

theorem raw_handle_released_once_raced :
    raced.Reachable ∧ (∃ place, raced.scene.places.filter (fun e => e.2 = 0) = {(place, 0)}) ∧
    (collect Event.begins raced.history).Nodup ∧
    (.opened 0 0 ∈ raced.history ∧ .opened 0 1 ∈ raced.history ∧ raced.held = []) ∧
    raced.history.count (.closed 0) = 1 ∧ raced.history.count (.closed 1) = 1 := by
  have hs : raced.Reachable := ⟨racing, (Option.some_get _).symm⟩
  have ho : .opened 0 0 ∈ raced.history := by decide +kernel
  have ho' : .opened 0 1 ∈ raced.history := by decide +kernel
  have hheld : raced.held = [] := by decide +kernel
  obtain ⟨hplace, hbegins, -, -, -, -, hclosed⟩ := raw_handle_released_once hs
  have hall := hclosed 0 (by decide +kernel) (by simp [hheld]) (.inr (by decide +kernel))
  exact ⟨hs, hplace 0 0 ho, hbegins, ⟨ho, ho', hheld⟩, hall 0 ho, hall 1 ho'⟩

end System

end ReadPool
