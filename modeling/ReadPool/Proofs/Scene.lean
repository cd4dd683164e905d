import Mathlib
import ReadPool.Proofs.System
import ReadPool.Proofs.World

/-!
# Scenes

A system without the order of its threads: what is going on, whoever does it, and which references
are held, whoever holds them. `Step` has one case for each thing that can happen, with all that it
changes; whether the acts of a system really are such steps is settled in
`ReadPool.Proofs.Reachable`, where the invariants are at hand that rule the other cases out.
-/

namespace ReadPool

structure Scene (σ : Type u) where
  world : World σ
  frames : Multiset Frame
  held : Multiset WrapperId
  history : List Event

/-- What may have become of a wrapper: it keeps its name, its number and its pool, and does not come
by another raw handle. -/
structure Wrapper.Later (x x' : Wrapper) : Prop where
  identity : x'.identity = x.identity
  entry : x'.entry = x.entry
  home : x'.home = x.home
  stream : x'.stream = x.stream ∨ x'.stream = none

theorem Wrapper.Later.refl (x : Wrapper) : x.Later x := ⟨rfl, rfl, rfl, .inl rfl⟩

theorem World.later_updateWrapper {w : World σ} {h k : WrapperId} {x : Wrapper}
    (hx : w.wrappers[k]? = some x) {f : Wrapper → Wrapper} (hf : ∀ y : Wrapper, y.Later (f y)) :
    ∃ x', (w.updateWrapper h f).wrappers[k]? = some x' ∧ x.Later x' := by
  rw [World.updateWrapper, List.getElem?_modify, hx]
  by_cases hk : h = k
  · exact ⟨f x, by simp [hk], hf x⟩
  · exact ⟨x, by simp [hk], .refl x⟩

def System.scene (s : System σ) : Scene σ := ⟨s.world, s.frames, s.held, s.history⟩

namespace Scene

inductive Step : Scene σ → Scene σ → Prop where
  /-- Nothing happens that a scene shows. -/
  | still {sc : Scene σ} : Step sc sc
  | newPool {config : Config} : Step ⟨w, F, H, E⟩ ⟨(w.addPool config).1, F, H, E⟩
  | acquire {p : PoolId} {X : Identity} (hp : w.isUp p) (hd : .disconnect p ∉ F) :
      Step ⟨w, F, H, E⟩ ⟨w, .receive p 0 ::ₘ .lookUp p X ::ₘ F, H, E⟩
  | purge {p : PoolId} (hp : w.isUp p) (hd : .disconnect p ∉ F) :
      Step ⟨w, F, H, E⟩ ⟨w, .receive p 0 ::ₘ F, H, E⟩
  | dropPool {p : PoolId} (hp : w.isUp p) (hF : ∀ f ∈ F, f.pool? ≠ some p) :
      Step ⟨w, F, H, E⟩ ⟨w, .receive p 0 ::ₘ .retire p ::ₘ .disconnect p ::ₘ F, H, E⟩
  | letGo {h : WrapperId} : Step ⟨w, F, h ::ₘ H, E⟩ ⟨w, .drop h ::ₘ F, H, E⟩
  | clone {h : WrapperId} (hh : h ∈ H) : Step ⟨w, F, H, E⟩ ⟨w.retain h, F, h ::ₘ H, E⟩
  | read {h : WrapperId} {x : Wrapper} {raw : RawId} (f : σ → σ) (hh : h ∈ H)
      (hx : w.wrappers[h]? = some x) (hr : x.stream = some raw) :
      Step ⟨w, F, H, E⟩ ⟨w.updateRaw raw fun r => { r with state := f r.state }, F, H, E⟩
  | receiveNone {p : PoolId} {n : Nat} (hq : w.pending p = []) :
      Step ⟨w, .receive p n ::ₘ F, H, E⟩ ⟨w, F, H, .drained p :: E⟩
  | receive {p : PoolId} {n : Nat} {note : Note} {notes : List Note}
      (hq : w.pending p = note :: notes) :
      Step ⟨w, .receive p n ::ₘ F, H, E⟩
        ⟨w.updatePool p fun pool => { pool with queue := some notes },
          .evict p note ::ₘ .receive p (n + 1) ::ₘ F, H, E⟩
  | evict {p : PoolId} {note : Note} :
      Step ⟨w, .evict p note ::ₘ F, H, E⟩
        ⟨w.updatePool p fun pool =>
            { pool with slots := pool.slots.evict note.identity note.entry },
          .close note.raw note.identity note.entry .death ::ₘ F, H, E⟩
  | vacant {p : PoolId} {X : Identity} {pool : Pool} (hp : w.pools[p]? = some pool)
      (hX : pool.slots.find? X = none) :
      Step ⟨w, .lookUp p X ::ₘ F, H, E⟩ ⟨w, .opening p X none ::ₘ F, H, .asked p X :: E⟩
  | stale {p : PoolId} {X : Identity} {pool : Pool} {slot : Slot} (hp : w.pools[p]? = some pool)
      (hX : pool.slots.find? X = some slot) (hl : w.isLive slot.wrapper = false) :
      Step ⟨w, .lookUp p X ::ₘ F, H, E⟩
        ⟨w, .opening p X (some slot.entry) ::ₘ F, H, .asked p X :: E⟩
  | hit {p : PoolId} {X : Identity} {pool : Pool} {slot : Slot} (hp : w.pools[p]? = some pool)
      (hX : pool.slots.find? X = some slot) (hl : w.isLive slot.wrapper) :
      Step ⟨w, .lookUp p X ::ₘ F, H, E⟩
        ⟨w.retain slot.wrapper, F, slot.wrapper ::ₘ H, .acquired p X slot.wrapper :: E⟩
  | openFailed {p : PoolId} {X : Identity} {observed : Option Entry} :
      Step ⟨w, .opening p X observed ::ₘ F, H, E⟩ ⟨w, F, H, E⟩
  | opened {p : PoolId} {X : Identity} {observed : Option Entry} (state : σ) :
      Step ⟨w, .opening p X observed ::ₘ F, H, E⟩
        ⟨(w.addRaw X state).1, .wrap p X observed w.raws.length ::ₘ F, H,
          .opened p w.raws.length :: E⟩
  | wrap {p : PoolId} {X : Identity} {observed : Option Entry} {raw : RawId} {pool : Pool}
      (hp : w.pools[p]? = some pool) :
      Step ⟨w, .wrap p X observed raw ::ₘ F, H, E⟩
        ⟨((w.updatePool p fun pool => { pool with next := pool.next + 1 }).addWrapper
            p X pool.next raw).1,
          .publish p X observed w.wrappers.length ::ₘ F, H,
          .wrapped p w.wrappers.length raw :: E⟩
  | publish {p : PoolId} {X : Identity} {observed : Option Entry} {h : WrapperId} {x : Wrapper}
      {pool : Pool} {slots : Slots} (hx : w.wrappers[h]? = some x) (hp : w.pools[p]? = some pool)
      (hs : pool.slots.publish X observed ⟨x.entry, h⟩ = some slots) :
      Step ⟨w, .publish p X observed h ::ₘ F, H, E⟩
        ⟨w.updatePool p fun pool => { pool with slots }, F, h ::ₘ H,
          .acquired p X h :: .published h :: E⟩
  | lose {p : PoolId} {X : Identity} {observed : Option Entry} {h : WrapperId}
      (hX : (w.slot? p X).map Slot.entry ≠ observed) :
      Step ⟨w, .publish p X observed h ::ₘ F, H, E⟩ ⟨w, .discard h ::ₘ .lookUp p X ::ₘ F, H, E⟩
  | discard {h : WrapperId} {x : Wrapper} {raw : RawId} (hx : w.wrappers[h]? = some x)
      (hs : x.strong = 1) (hr : x.stream = some raw) :
      Step ⟨w, .discard h ::ₘ F, H, E⟩
        ⟨w.updateWrapper h fun x => { x with strong := 0, stream := none },
          .close raw x.identity x.entry .lostRace ::ₘ F, H, E⟩
  | dropShared {h : WrapperId} {x : Wrapper} (hx : w.wrappers[h]? = some x) (hs : x.strong ≠ 1) :
      Step ⟨w, .drop h ::ₘ F, H, E⟩
        ⟨w.updateWrapper h fun x => { x with strong := x.strong - 1 }, F, H, E⟩
  | dropLast {h : WrapperId} {x : Wrapper} {raw : RawId} (hx : w.wrappers[h]? = some x)
      (hs : x.strong = 1) (hr : x.stream = some raw) :
      Step ⟨w, .drop h ::ₘ F, H, E⟩
        ⟨w.updateWrapper h fun x => { x with strong := 0, stream := none },
          .post x.home ⟨x.identity, x.entry, raw⟩ ::ₘ F, H, E⟩
  | close {raw : RawId} {X : Identity} {entry : Entry} {cause : CloseCause} :
      Step ⟨w, .close raw X entry cause ::ₘ F, H, E⟩
        ⟨w.updateRaw raw fun r => { r with phase := .closing },
          .closing raw X entry cause ::ₘ F, H, .closing raw cause :: E⟩
  | closed {raw : RawId} {X : Identity} {entry : Entry} {cause : CloseCause} :
      Step ⟨w, .closing raw X entry cause ::ₘ F, H, E⟩
        ⟨w.updateRaw raw fun r => { r with phase := .closed }, F, H, .closed raw :: E⟩
  | post {home : PoolId} {note : Note} {notes : List Note}
      (hq : w.pools[home]?.bind Pool.queue = some notes) :
      Step ⟨w, .post home note ::ₘ F, H, E⟩
        ⟨w.updatePool home fun pool => { pool with queue := some (notes ++ [note]) }, F, H,
          .posted home :: E⟩
  | postInline {home : PoolId} {note : Note} (hq : w.pools[home]?.bind Pool.queue = none) :
      Step ⟨w, .post home note ::ₘ F, H, E⟩
        ⟨w, .close note.raw note.identity note.entry .death ::ₘ F, H, E⟩
  | retire {p : PoolId} : Step ⟨w, .retire p ::ₘ F, H, E⟩ ⟨w, .retiring p ::ₘ F, H, E⟩
  | retired {p : PoolId} : Step ⟨w, .retiring p ::ₘ F, H, E⟩ ⟨w, F, H, E⟩
  | disconnect {p : PoolId} :
      Step ⟨w, .disconnect p ::ₘ F, H, E⟩
        ⟨w.updatePool p fun pool => { pool with slots := .empty, queue := none },
          .flush (w.pending p) ::ₘ F, H, .ended p ((w.pending p).map Note.raw) :: E⟩
  | flushNone : Step ⟨w, .flush [] ::ₘ F, H, E⟩ ⟨w, F, H, E⟩
  | flush {note : Note} {notes : List Note} :
      Step ⟨w, .flush (note :: notes) ::ₘ F, H, E⟩
        ⟨w, .close note.raw note.identity note.entry .death ::ₘ .flush notes ::ₘ F, H, E⟩

/-! ## What lasts -/

namespace Step

variable {sc sc' : Scene σ}

theorem history (hs : Step sc sc') : ∃ events, sc'.history = events ++ sc.history := by
  cases hs with
  | receiveNone => exact ⟨[_], rfl⟩
  | vacant => exact ⟨[_], rfl⟩
  | stale => exact ⟨[_], rfl⟩
  | hit => exact ⟨[_], rfl⟩
  | opened => exact ⟨[_], rfl⟩
  | wrap => exact ⟨[_], rfl⟩
  | publish => exact ⟨[_, _], rfl⟩
  | close => exact ⟨[_], rfl⟩
  | closed => exact ⟨[_], rfl⟩
  | post => exact ⟨[_], rfl⟩
  | disconnect => exact ⟨[_], rfl⟩
  | _ => exact ⟨[], rfl⟩

theorem mem_history (hs : Step sc sc') {ev : Event} (h : ev ∈ sc.history) : ev ∈ sc'.history := by
  obtain ⟨events, he⟩ := hs.history
  exact he ▸ List.mem_append_right events h

theorem later (hs : Step sc sc') {h : WrapperId} {x : Wrapper}
    (hx : sc.world.wrappers[h]? = some x) :
    ∃ x', sc'.world.wrappers[h]? = some x' ∧ x.Later x' := by
  cases hs with
  | clone => exact World.later_updateWrapper hx fun _ => ⟨rfl, rfl, rfl, .inl rfl⟩
  | hit => exact World.later_updateWrapper hx fun _ => ⟨rfl, rfl, rfl, .inl rfl⟩
  | @wrap w F H E p X observed raw pool hp =>
    refine ⟨x, ?_, .refl x⟩
    have hl : h < w.wrappers.length := (List.getElem?_eq_some_iff.1 hx).1
    simpa [World.getElem?_addWrapper, Nat.ne_of_lt hl] using hx
  | discard => exact World.later_updateWrapper hx fun _ => ⟨rfl, rfl, rfl, .inr rfl⟩
  | dropShared => exact World.later_updateWrapper hx fun _ => ⟨rfl, rfl, rfl, .inl rfl⟩
  | dropLast => exact World.later_updateWrapper hx fun _ => ⟨rfl, rfl, rfl, .inr rfl⟩
  | _ => exact ⟨x, hx, .refl x⟩

/-- A wrapper either was there before the step, or is made by it to be published next. -/
theorem earlier (hs : Step sc sc') {h : WrapperId} {x' : Wrapper}
    (hx : sc'.world.wrappers[h]? = some x') :
    (∃ x, sc.world.wrappers[h]? = some x ∧ x.Later x') ∨
    (∃ p raw, h = sc.world.wrappers.length ∧ x'.home = p ∧ x'.stream = some raw ∧
      .wrapped p h raw ∈ sc'.history ∧ ∃ X observed, .publish p X observed h ∈ sc'.frames) := by
  by_cases hl : h < sc.world.wrappers.length
  · left
    obtain ⟨x'', hx'', hlater⟩ := hs.later (List.getElem?_eq_getElem hl)
    obtain rfl : x'' = x' := Option.some.inj (hx''.symm.trans hx)
    exact ⟨_, List.getElem?_eq_getElem hl, hlater⟩
  · right
    have hn : sc.world.wrappers[h]? = none := List.getElem?_eq_none (Nat.le_of_not_lt hl)
    cases hs with
    | @wrap w F H E p X observed raw pool hp =>
      rw [World.getElem?_addWrapper] at hx
      split at hx
      · next hh =>
        cases hx
        exact ⟨p, raw, hh, rfl, rfl, by simp [hh], X, observed, by simp [hh]⟩
      · exact absurd (hn.symm.trans hx) (by simp)
    | _ => simp_all [World.retain, World.updateWrapper]

end Step

end Scene

end ReadPool
