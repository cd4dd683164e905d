import Mathlib
import ReadPool.Proofs.References

/-!
# Who has a raw handle

Every raw handle that was opened is in one place, from the open to the end of its close: with an
acquisition that has not wrapped it yet, in the stream of a wrapper, in a death, in the hands of a
race that was lost, or closed. `Owned` states this as an equation between bags, together with the
accounts that the history keeps of opens, wrappers and closes.
-/

namespace ReadPool

inductive Whereabouts where
  | unwrapped
  | stream
  | posting
  | queued
  | received
  | discarded
  | closed
deriving DecidableEq

namespace Frame

/-- The raw handles that a frame has, and what for. -/
def places : Frame → Multiset (Whereabouts × RawId)
  | wrap _ _ _ raw => {(.unwrapped, raw)}
  | post _ note => {(.posting, note.raw)}
  | evict _ note => {(.received, note.raw)}
  | flush notes => (notes.map fun note => (.queued, note.raw) : List (Whereabouts × RawId))
  | close raw _ _ .death => {(.received, raw)}
  | close raw _ _ .lostRace => {(.discarded, raw)}
  | closing raw _ _ .death => {(.received, raw)}
  | closing raw _ _ .lostRace => {(.discarded, raw)}
  | _ => 0

/-- The open that has no wrapper yet. -/
def unwrapped : Frame → Multiset (PoolId × RawId)
  | wrap p _ _ raw => {(p, raw)}
  | _ => 0

/-- The raw handle whose close is at work. -/
def underClose : Frame → Multiset RawId
  | closing raw _ _ _ => {raw}
  | _ => 0

def raws : Frame → Multiset RawId
  | wrap _ _ _ raw => {raw}
  | post _ note => {note.raw}
  | evict _ note => {note.raw}
  | flush notes => (notes.map Note.raw : List RawId)
  | close raw _ _ _ => {raw}
  | closing raw _ _ _ => {raw}
  | _ => 0

theorem map_snd_places (f : Frame) : f.places.map Prod.snd = f.raws := by
  cases f with
  | close raw X entry cause => cases cause <;> rfl
  | closing raw X entry cause => cases cause <;> rfl
  | flush notes => simp [places, raws, Function.comp_def]
  | _ => rfl

theorem underClose_le (f : Frame) : f.underClose ≤ f.raws := by
  cases f <;> simp [underClose, raws]

end Frame

namespace Event

def opens : Event → Multiset (PoolId × RawId)
  | opened p raw => {(p, raw)}
  | _ => 0

def wraps : Event → Multiset (PoolId × RawId)
  | wrapped p _ raw => {(p, raw)}
  | _ => 0

def wrappers : Event → Multiset WrapperId
  | wrapped _ h _ => {h}
  | _ => 0

def begins : Event → Multiset RawId
  | closing raw _ => {raw}
  | _ => 0

def closes : Event → Multiset RawId
  | closed raw => {raw}
  | _ => 0

end Event

namespace Scene

/-- Where all raw handles are. -/
def places (sc : Scene σ) : Multiset (Whereabouts × RawId) :=
  collect Frame.places sc.frames + sc.world.streams.map (Prod.mk .stream)
    + sc.world.queued.map (Prod.mk .queued) + (collect Event.closes sc.history).map (Prod.mk .closed)

/-- The raw handles at all places. -/
def raws (sc : Scene σ) : Multiset RawId :=
  collect Frame.raws sc.frames + sc.world.streams + sc.world.queued
    + collect Event.closes sc.history

structure Owned (sc : Scene σ) : Prop where
  raws_eq : sc.raws = Multiset.range sc.world.raws.length
  opens_eq : (collect Event.opens sc.history).map Prod.snd = Multiset.range sc.world.raws.length
  wraps_eq : collect Event.wraps sc.history + collect Frame.unwrapped sc.frames
    = collect Event.opens sc.history
  wrappers_eq : collect Event.wrappers sc.history = Multiset.range sc.world.wrappers.length
  begins_eq : collect Event.begins sc.history
    = collect Frame.underClose sc.frames + collect Event.closes sc.history
  home_of_wrapped : ∀ p h raw, .wrapped p h raw ∈ sc.history →
    ∃ x, sc.world.wrappers[h]? = some x ∧ x.home = p
  wrapped_of_stream : ∀ (h : WrapperId) (x : Wrapper) (raw : RawId),
    sc.world.wrappers[h]? = some x → x.stream = some raw → .wrapped x.home h raw ∈ sc.history

variable {sc sc' : Scene σ}

theorem map_snd_places (sc : Scene σ) : sc.places.map Prod.snd = sc.raws := by
  have hF : (collect Frame.places sc.frames).map Prod.snd = collect Frame.raws sc.frames := by
    simp only [map_collect, Frame.map_snd_places]
  simp [places, raws, hF, Multiset.map_map]

namespace Step

/-- No step makes or loses a raw handle, but for an open that makes one. -/
theorem raws_add_range (hs : Step sc sc') : sc'.raws + Multiset.range sc.world.raws.length
    = sc.raws + Multiset.range sc'.world.raws.length := by
  cases hs with
  | receive hq =>
    simp only [raws, collect_cons, Frame.raws, World.streams_updatePool, World.raws_updatePool,
      World.queued_receive hq]
    abel
  | evict => simp [raws, Frame.raws, World.queued_updatePool_of_eq]
  | opened state =>
    simp only [raws, collect_cons, collect_coe_cons, Frame.raws, Event.closes,
      World.streams_addRaw, World.queued_addRaw, World.length_raws_addRaw, Multiset.range_succ]
    rw [← Multiset.singleton_add]
    abel
  | @wrap w F H E p X observed raw pool hp =>
    have hq := World.queued_updatePool_of_eq (w := w) (p := p)
      (fun pool => { pool with next := pool.next + 1 }) fun _ => rfl
    simp only [raws, collect_cons, collect_coe_cons, Frame.raws, Event.closes,
      World.streams_addWrapper, World.queued_addWrapper, World.raws_addWrapper,
      World.raws_updatePool, World.streams_updatePool, hq]
    abel
  | publish hx hp hs => simp [raws, Frame.raws, Event.closes, World.queued_updatePool_of_eq]
  | @discard w F H E h x raw hx hs hr =>
    have hst := World.streams_giveUp hx hr (fun x => { x with strong := 0, stream := none }) rfl
    simp only [raws, collect_cons, Frame.raws, World.queued_updateWrapper,
      World.raws_updateWrapper, hst]
    abel
  | dropShared hx hs => simp [raws, Frame.raws, World.streams_updateWrapper_of_eq]
  | @dropLast w F H E h x raw hx hs hr =>
    have hst := World.streams_giveUp hx hr (fun x => { x with strong := 0, stream := none }) rfl
    simp only [raws, collect_cons, Frame.raws, World.queued_updateWrapper,
      World.raws_updateWrapper, hst]
    abel
  | closed =>
    simp only [raws, collect_cons, collect_coe_cons, Frame.raws, Event.closes,
      World.streams_updateRaw, World.queued_updateRaw, World.length_raws_updateRaw]
    abel
  | post hq =>
    simp only [raws, collect_cons, collect_coe_cons, Frame.raws, Event.closes,
      World.streams_updatePool, World.raws_updatePool, World.queued_post hq]
    abel
  | @disconnect w F H E p =>
    have hd := World.queued_disconnect (w := w) (p := p)
      (fun pool => { pool with slots := .empty, queue := none }) fun _ => rfl
    simp only [raws, collect_cons, collect_coe_cons, Frame.raws, Event.closes,
      World.streams_updatePool, World.raws_updatePool, hd]
    abel
  | @flush w F H E note notes =>
    have hn : ((note :: notes).map Note.raw : Multiset RawId)
        = {note.raw} + (notes.map Note.raw : List RawId) := rfl
    simp only [raws, collect_cons, Frame.raws, hn]
    abel
  | _ => simp [raws, Frame.raws, Event.closes]

theorem opens (hs : Step sc sc') :
    (collect Event.opens sc'.history).map Prod.snd + Multiset.range sc.world.raws.length
      = (collect Event.opens sc.history).map Prod.snd + Multiset.range sc'.world.raws.length := by
  cases hs with
  | opened state =>
    simp only [collect_coe_cons, Event.opens, Multiset.map_add, Multiset.map_singleton,
      World.length_raws_addRaw, Multiset.range_succ]
    rw [← Multiset.singleton_add]
    abel
  | _ => simp [Event.opens]

theorem wraps (hs : Step sc sc') :
    collect Event.wraps sc'.history + collect Frame.unwrapped sc'.frames
        + collect Event.opens sc.history
      = collect Event.wraps sc.history + collect Frame.unwrapped sc.frames
        + collect Event.opens sc'.history := by
  cases hs with
  | opened state =>
    simp only [collect_cons, collect_coe_cons, Event.opens, Event.wraps, Frame.unwrapped]
    abel
  | wrap hp =>
    simp only [collect_cons, collect_coe_cons, Event.opens, Event.wraps, Frame.unwrapped]
    abel
  | _ => simp [Event.opens, Event.wraps, Frame.unwrapped]

theorem wrappers (hs : Step sc sc') :
    collect Event.wrappers sc'.history + Multiset.range sc.world.wrappers.length
      = collect Event.wrappers sc.history + Multiset.range sc'.world.wrappers.length := by
  cases hs with
  | wrap hp =>
    simp only [collect_coe_cons, Event.wrappers, World.length_wrappers_addWrapper,
      World.wrappers_updatePool, Multiset.range_succ]
    rw [← Multiset.singleton_add]
    abel
  | _ => simp [Event.wrappers]

theorem begins (hs : Step sc sc') :
    collect Event.begins sc'.history
        + (collect Frame.underClose sc.frames + collect Event.closes sc.history)
      = collect Event.begins sc.history
        + (collect Frame.underClose sc'.frames + collect Event.closes sc'.history) := by
  cases hs with
  | close =>
    simp only [collect_cons, collect_coe_cons, Event.begins, Event.closes, Frame.underClose]
    abel
  | closed =>
    simp only [collect_cons, collect_coe_cons, Event.begins, Event.closes, Frame.underClose]
    abel
  | _ => simp [Event.begins, Event.closes, Frame.underClose]

end Step

/-- An equation that each step keeps the balance of. -/
theorem balance {α : Type*} {a b a' b' : Multiset α} (h : a' + b = a + b') (hab : a = b) : a' = b' := by
  rw [hab, add_comm] at h
  exact add_left_cancel h

namespace Owned

theorem step (hi : Owned sc) (hs : Step sc sc') : Owned sc' where
  raws_eq := balance hs.raws_add_range hi.raws_eq
  opens_eq := balance hs.opens hi.opens_eq
  wraps_eq := balance hs.wraps hi.wraps_eq
  wrappers_eq := balance hs.wrappers hi.wrappers_eq
  begins_eq := balance hs.begins hi.begins_eq
  home_of_wrapped p h raw hw := by
    have old (ho : .wrapped p h raw ∈ sc.history) :
        ∃ x, sc'.world.wrappers[h]? = some x ∧ x.home = p := by
      obtain ⟨x, hx, hp⟩ := hi.home_of_wrapped p h raw ho
      obtain ⟨x', hx', hl⟩ := hs.later hx
      exact ⟨x', hx', hl.home.trans hp⟩
    cases hs with
    | wrap hp =>
      rcases List.mem_cons.1 hw with heq | ho
      · cases heq
        exact ⟨_, by rw [World.getElem?_addWrapper, World.wrappers_updatePool, if_pos rfl], rfl⟩
      · exact old ho
    | _ => exact old (by simpa using hw)
  wrapped_of_stream h x' raw hx hr := by
    rcases hs.earlier hx with ⟨x, hx, hl⟩ | ⟨p, raw', rfl, hp, hr', hw, -⟩
    · rcases hl.stream with hkeep | hgone
      · have := hi.wrapped_of_stream h x raw hx (hkeep ▸ hr)
        exact hl.home ▸ hs.mem_history this
      · cases hgone.symm.trans hr
    · obtain rfl : raw' = raw := Option.some.inj (hr'.symm.trans hr)
      exact hp ▸ hw

/-! ## No raw handle twice -/

variable (hi : Owned sc)
include hi

theorem nodup_raws : sc.raws.Nodup := hi.raws_eq ▸ Multiset.nodup_range _

theorem lt_of_mem_raws {raw : RawId} (h : raw ∈ sc.raws) : raw < sc.world.raws.length :=
  Multiset.mem_range.1 (hi.raws_eq ▸ h)

/-- A raw handle is put into one wrapper. -/
theorem wrapped_inj {p q : PoolId} {h k : WrapperId} {raw : RawId}
    (hp : .wrapped p h raw ∈ sc.history) (hq : .wrapped q k raw ∈ sc.history) : p = q ∧ h = k := by
  have hle : collect (fun ev : Event => ev.wraps.map Prod.snd) sc.history
      ≤ (collect Event.opens sc.history).map Prod.snd := by
    rw [← map_collect, ← hi.wraps_eq]
    exact Multiset.map_le_map (Multiset.le_add_right _ _)
  have hn := Multiset.nodup_of_le (hle.trans_eq hi.opens_eq) (Multiset.nodup_range _)
  have := eq_of_mem_collect hn hp hq (b := raw) (by simp [Event.wraps]) (by simp [Event.wraps])
  cases this
  exact ⟨rfl, rfl⟩

/-- One raw handle is put into a wrapper. -/
theorem wrapped_raw_inj {p q : PoolId} {h : WrapperId} {raw raw' : RawId}
    (hp : .wrapped p h raw ∈ sc.history) (hq : .wrapped q h raw' ∈ sc.history) : raw = raw' := by
  have hn : (collect Event.wrappers sc.history).Nodup := hi.wrappers_eq ▸ Multiset.nodup_range _
  have := eq_of_mem_collect hn hp hq (b := h) (by simp [Event.wrappers]) (by simp [Event.wrappers])
  cases this
  rfl

/-- A raw handle that somebody has at a frame has not been closed. -/
theorem not_closed_of_mem_frames {raw : RawId} (h : raw ∈ collect Frame.raws sc.frames) :
    raw ∉ collect Event.closes sc.history := by
  have hn := hi.nodup_raws
  rw [raws, add_assoc, add_assoc, Multiset.nodup_add] at hn
  exact fun hc => Multiset.disjoint_left.1 hn.2.2 h (by simp [hc])

end Owned

/-! ## How far a raw handle has come -/

theorem mem_raws_of_frame {f : Frame} {raw : RawId} (hf : f ∈ sc.frames) (hr : raw ∈ f.raws) :
    raw ∈ sc.raws := by
  have := mem_collect.2 ⟨f, hf, hr⟩
  simp [raws, this]

/-- What was not opened yet has not come far. -/
theorem Owned.not_begun (ho : Owned sc) {raw : RawId} (h : sc.world.raws.length ≤ raw) :
    raw ∉ collect Event.closes sc.history ∧ raw ∉ collect Frame.underClose sc.frames := by
  have hr : raw ∉ sc.raws := fun hm => Nat.not_lt.2 h (ho.lt_of_mem_raws hm)
  refine ⟨fun hc => hr (by simp [raws, hc]), fun hu => hr ?_⟩
  obtain ⟨f, hf, hm⟩ := mem_collect.1 hu
  exact mem_raws_of_frame hf (Multiset.mem_of_le f.underClose_le hm)

/-- How far a raw handle has come, going by what has happened to it. -/
def phase (sc : Scene σ) (raw : RawId) : Phase :=
  if raw ∈ collect Event.closes sc.history then .closed
  else if raw ∈ collect Frame.underClose sc.frames then .closing
  else .opened

def Phased (sc : Scene σ) : Prop :=
  ∀ (raw : RawId) (r : RawHandle σ), sc.world.raws[raw]? = some r → r.phase = sc.phase raw

namespace Phased

theorem congr (hi : Phased sc) (hw : sc'.world.raws = sc.world.raws)
    (hc : collect Event.closes sc'.history = collect Event.closes sc.history)
    (hu : collect Frame.underClose sc'.frames = collect Frame.underClose sc.frames) :
    Phased sc' := by
  intro raw r hr
  rw [hi raw r (hw ▸ hr), phase, phase, hc, hu]

theorem step (hi : Phased sc) (ho : Owned sc) (hs : Step sc sc') : Phased sc' := by
  cases hs with
  | @read w F H E h x raw f hh hx hr =>
    intro k r hk
    simp only [World.updateRaw, List.getElem?_modify, Option.map_eq_map, Option.map_eq_some_iff] at hk
    obtain ⟨r₀, hr₀, rfl⟩ := hk
    have := hi k r₀ hr₀
    split <;> exact this
  | @opened w F H E p X observed state =>
    intro k r hk
    have hphase : phase ⟨(w.addRaw X state).1, .wrap p X observed w.raws.length ::ₘ F, H,
        .opened p w.raws.length :: E⟩ k = phase ⟨w, .opening p X observed ::ₘ F, H, E⟩ k := by
      simp [phase, Event.closes, Frame.underClose]
    rw [hphase]
    rw [World.addRaw, List.getElem?_append] at hk
    split at hk
    · exact hi k r hk
    · next hlt =>
      obtain ⟨hc, hu⟩ := ho.not_begun (Nat.le_of_not_lt hlt)
      obtain rfl := List.mem_singleton.1 (List.mem_of_getElem? hk)
      rw [phase, if_neg hc, if_neg hu]
  | @close w F H E raw X entry cause =>
    intro k r hk
    simp only [World.updateRaw, List.getElem?_modify, Option.map_eq_map, Option.map_eq_some_iff] at hk
    obtain ⟨r₀, hr₀, rfl⟩ := hk
    have := hi k r₀ hr₀
    by_cases hk : raw = k
    · subst hk
      have hc : raw ∉ collect Event.closes E := ho.not_closed_of_mem_frames (by simp [Frame.raws])
      simp [phase, Event.closes, Frame.underClose, hc]
    · simp only [if_neg hk]
      rw [this]
      simp [phase, Event.closes, Frame.underClose, Ne.symm hk]
  | @closed w F H E raw X entry cause =>
    intro k r hk
    simp only [World.updateRaw, List.getElem?_modify, Option.map_eq_map, Option.map_eq_some_iff] at hk
    obtain ⟨r₀, hr₀, rfl⟩ := hk
    have := hi k r₀ hr₀
    by_cases hk : raw = k
    · subst hk
      simp [phase, Event.closes]
    · simp only [if_neg hk]
      rw [this]
      simp [phase, Event.closes, Frame.underClose, Ne.symm hk]
  | _ => exact hi.congr (by simp) (by simp [Event.closes]) (by simp [Frame.underClose])

end Phased

end Scene

end ReadPool
