import Mathlib
import ReadPool.Proofs.Correspondence
import ReadPool.Proofs.Moments

/-!
# Drains that share a queue

Any number of callers drain one pool, whatever else threads are in the middle of. However the
drains share the deaths that wait, and in whatever order they take slots out and close, the table
loses the slots with the numbers of those deaths and no others, and the raw handles of the deaths
are closed, once each.

`DrainStep` is what one drain does next, and `Shared` the account that all of them keep together;
`Drainers` adds which thread is how far.
-/

namespace ReadPool

namespace Slots

variable {s : Slots} {X : Identity} {entry : Entry} {entries : List Entry}

/-- The slots with other numbers. -/
def without (s : Slots) (entries : List Entry) : Slots where
  toList := s.toList.filter fun e => e.2.entry ∉ entries
  distinct := s.distinct.filter _

theorem mem_without {e : Identity × Slot} :
    e ∈ (s.without entries).toList ↔ e ∈ s.toList ∧ e.2.entry ∉ entries := by
  simp [without]

@[simp] theorem without_nil : s.without [] = s := by simp [without]

theorem without_without (s : Slots) (entries entries' : List Entry) :
    (s.without entries).without entries' = s.without (entries' ++ entries) := by
  simp only [without, List.filter_filter, mk.injEq]
  congr 1
  funext e
  simp

theorem without_congr {entries' : List Entry} (h : ∀ entry, entry ∈ entries ↔ entry ∈ entries') :
    s.without entries = s.without entries' := by
  simp only [without, h]

/-- Where a number belongs to one identity, its slot is all that goes. -/
theorem evict_eq_without (hX : ∀ e ∈ s.toList, e.2.entry = entry → e.1.Same X) :
    s.evict X entry = s.without [entry] := by
  have hcur {e : Identity × Slot} (he : e ∈ s.toList) (hs : e.1.Same X) :
      s.find? X = some e.2 := by
    rw [← s.find?_congr hs, find?_of_mem he]
  unfold evict
  split
  · next hc =>
    simp only [erase, without, mk.injEq]
    refine List.filter_congr fun e he => ?_
    simp only [List.mem_singleton, decide_eq_decide, not_iff_not]
    refine ⟨fun hs => ?_, hX e he⟩
    simpa [isCurrent, hcur he hs] using hc
  · next hc =>
    have hall : ∀ e ∈ s.toList, e.2.entry ∉ [entry] := by
      intro e he hm
      have he' := List.mem_singleton.1 hm
      exact hc (by simp [isCurrent, hcur he (hX e he he'), he'])
    rw [without, mk.injEq, List.filter_eq_self.2 (by simpa using hall)]

end Slots

/-! ## One drain -/

/-- What a drain of `p` does next, with what happens by it. -/
inductive DrainStep (p : PoolId) :
    World σ → List Frame → World σ → List Frame → List Event → Prop where
  | finish {n : Nat} (hq : w.pending p = []) :
      DrainStep p w [.receive p n] w [] [.drained p]
  | receive {n : Nat} {note : Note} {notes : List Note} (hq : w.pending p = note :: notes) :
      DrainStep p w [.receive p n]
        (w.updatePool p fun pool => { pool with queue := some notes })
        [.evict p note, .receive p (n + 1)] []
  | evict {n : Nat} {note : Note} :
      DrainStep p w [.evict p note, .receive p n]
        (w.updatePool p fun pool =>
          { pool with slots := pool.slots.evict note.identity note.entry })
        [.close note.raw note.identity note.entry .death, .receive p n] []
  | close {n : Nat} {raw : RawId} {X : Identity} {entry : Entry} :
      DrainStep p w [.close raw X entry .death, .receive p n]
        (w.updateRaw raw fun r => { r with phase := .closing })
        [.closing raw X entry .death, .receive p n] [.closing raw .death]
  | closed {n : Nat} {raw : RawId} {X : Identity} {entry : Entry} :
      DrainStep p w [.closing raw X entry .death, .receive p n]
        (w.updateRaw raw fun r => { r with phase := .closed }) [.receive p n] [.closed raw]

section

variable {p : PoolId} {w w' : World σ} {mine mine' below : List Frame} {events : List Event}
  {turn : Turn σ} {a : Act σ}

/-- A drain that goes on does what `DrainStep` says, whatever waits below it. -/
theorem Purging.drainStep (hp : Purging p mine) (hne : mine ≠ [])
    (h : w.Yields (mine ++ below) turn) : ∃ mine', turn.frames = mine' ++ below ∧
      turn.gained = [] ∧ DrainStep p w mine turn.world mine' (turn.events w (mine ++ below)) := by
  cases hp with
  | receive n =>
    cases h with
    | drained hq =>
      exact ⟨[], rfl, by simp, by simpa [Turn.events, hq] using DrainStep.finish hq⟩
    | received hq =>
      exact ⟨[_, _], rfl, rfl, by simpa [Turn.events, hq] using DrainStep.receive hq⟩
  | evict note n =>
    cases h with
    | evicted => exact ⟨[_, _], rfl, rfl, .evict⟩
  | close raw X entry n =>
    cases h with
    | closing => exact ⟨[_, _], rfl, rfl, .close⟩
  | closing raw X entry n =>
    cases h with
    | closed => exact ⟨[_], rfl, by simp, .closed⟩
  | done => exact absurd rfl hne

/-- A drain that is not over goes on by some act. -/
theorem Purging.exists_turn (hp : Purging p mine) (hne : mine ≠ []) (w : World σ) (t : ThreadId)
    (below : List Frame) : ∃ (a : Act σ) (turn : Turn σ), a.isBy t ∧
      a.turn? w (mine ++ below) = some turn := by
  cases hp with
  | receive n =>
    obtain ⟨turn, h⟩ := w.exists_step below (f := .receive p n) rfl
    exact ⟨.turn t, turn, rfl, h⟩
  | evict note n => exact ⟨.turn t, _, rfl, rfl⟩
  | close raw X entry n => exact ⟨.turn t, _, rfl, rfl⟩
  | closing raw X entry n => exact ⟨.closed t none, _, rfl, rfl⟩
  | done => exact absurd rfl hne

namespace DrainStep

theorem purging (h : DrainStep p w mine w' mine' events) : Purging p mine' := by
  cases h with
  | finish => exact .done
  | receive => exact .evict _ _
  | evict => exact .close _ _ _ _
  | close => exact .closing _ _ _ _
  | closed => exact .receive _

theorem pending_of_finish (h : DrainStep p w mine w' [] events) : w'.pending p = [] := by
  cases h with
  | finish hq => exact hq

end DrainStep

end

/-! ## The account of all drains -/

/-- How many acts it takes to be done with a frame of a drain. -/
def Frame.turns : Frame → Nat
  | receive .. => 1
  | evict .. => 3
  | close .. => 2
  | closing .. => 1
  | _ => 0

/-- How many acts are left to the drains whose frames are `D`: four for each death that waits. -/
def World.turnsLeft (w : World σ) (p : PoolId) (D : Multiset Frame) : Nat :=
  (D.map Frame.turns).sum + 4 * (w.pending p).length

/-- What drains have made of a pool whose queue had `notes`: `gone` are the deaths whose slots were
taken out, and `rest` still wait. `D` are the frames of the drains, and the history was `E₀`. -/
structure Shared (p : PoolId) (pool : Pool) (notes : List Note) (E₀ : List Event) (w : World σ)
    (D : Multiset Frame) (E : List Event) (gone rest : List Note) : Prop where
  pool : w.pools[p]? = some
    { pool with slots := pool.slots.without (gone.map Note.entry), queue := some rest }
  notes_eq : (gone : Multiset Note) + collect (Frame.evictingFrom p) D + rest = notes
  closes_eq : collect Event.closes E + collect Frame.raws D + (rest.map Note.raw : List RawId)
    = collect Event.closes E₀ + (notes.map Note.raw : List RawId)
  opens_eq : opensOf p E = opensOf p E₀

namespace Shared

variable {p : PoolId} {pool : Pool} {notes gone rest : List Note} {E₀ E events : List Event}
  {w w' : World σ} {mine mine' : List Frame} {O : Multiset Frame}

theorem pending (h : Shared p pool notes E₀ w O E gone rest) : w.pending p = rest := by
  rw [World.pending_eq h.pool, Option.getD_some]

theorem pools_update {D : Multiset Frame} (h : Shared p pool notes E₀ w D E gone rest)
    (f : Pool → Pool) : (w.updatePool p f).pools[p]? = some (f
      { pool with slots := pool.slots.without (gone.map Note.entry), queue := some rest }) := by
  rw [World.getElem?_updatePool, if_pos rfl, h.pool, Option.map_some]

/-- What one drain does keeps the account, provided that the number of a death belongs to one
identity. -/
theorem step (h : Shared p pool notes E₀ w (mine + O) E gone rest)
    (hs : DrainStep p w mine w' mine' events)
    (hX : ∀ note, .evict p note ∈ mine → ∀ e ∈ (pool.slots.without (gone.map Note.entry)).toList,
      e.2.entry = note.entry → e.1.Same note.identity) :
    ∃ gone' rest', Shared p pool notes E₀ w' (mine' + O) (events ++ E) gone' rest' := by
  have hopens := h.opens_eq
  have hnotes := h.notes_eq
  have hcloses := h.closes_eq
  cases hs with
  | finish hq =>
    refine ⟨gone, rest, h.pool, ?_, ?_, by simpa [opensOf, Event.isOpen] using hopens⟩
    · simpa [Frame.evictingFrom] using hnotes
    · simpa [Event.closes, Frame.raws] using hcloses
  | @receive n note notes' hq =>
    obtain rfl : rest = note :: notes' := h.pending.symm.trans hq
    -- The death moves from the queue to the drain, with its raw handle.
    refine ⟨gone, notes', h.pools_update _, ?_, ?_, by simpa using hopens⟩
    · simp only [collect_add, collect_coe_cons, collect_nil, Frame.evictingFrom, if_true,
        ← Multiset.cons_coe note, ← Multiset.singleton_add note] at hnotes ⊢
      rw [← hnotes]
      abel
    · simp only [collect_add, collect_coe_cons, collect_nil, Frame.raws, List.map_cons,
        ← Multiset.cons_coe (note.raw), ← Multiset.singleton_add note.raw, List.nil_append]
        at hcloses ⊢
      rw [← hcloses]
      abel
  | @evict n note =>
    -- It takes out its own slot alone, whatever has gone before.
    refine ⟨note :: gone, rest, ?_, ?_, ?_, by simpa using hopens⟩
    · rw [h.pools_update]
      simp only [Slots.evict_eq_without (hX note (by simp)), Slots.without_without,
        List.singleton_append, List.map_cons]
    · simp only [collect_add, collect_coe_cons, collect_nil, Frame.evictingFrom, if_true,
        ← Multiset.cons_coe note gone, ← Multiset.singleton_add note] at hnotes ⊢
      rw [← hnotes]
      abel
    · simpa [Frame.raws] using hcloses
  | close =>
    refine ⟨gone, rest, h.pool, ?_, ?_, by simpa [opensOf, Event.isOpen] using hopens⟩
    · simpa [Frame.evictingFrom] using hnotes
    · simpa [Event.closes, Frame.raws] using hcloses
  | @closed n raw X entry =>
    -- The raw handle moves from the drain to the history.
    refine ⟨gone, rest, h.pool, ?_, ?_, by simpa [opensOf, Event.isOpen] using hopens⟩
    · simpa [Frame.evictingFrom] using hnotes
    · simp only [collect_add, collect_coe_cons, collect_nil, Frame.raws, Event.closes,
        List.singleton_append] at hcloses ⊢
      rw [← hcloses]
      abel

/-- Every act of a drain is one fewer to do. -/
theorem turnsLeft_step (h : Shared p pool notes E₀ w (mine + O) E gone rest)
    (hs : DrainStep p w mine w' mine' events) :
    w'.turnsLeft p (mine' + O) + 1 = w.turnsLeft p (mine + O) := by
  cases hs with
  | finish => simp [World.turnsLeft, Frame.turns]; omega
  | @receive n note notes' hq =>
    simp [World.turnsLeft, Frame.turns, hq, World.pending_receive hq]
    omega
  | _ => simp [World.turnsLeft, Frame.turns]; omega

/-- One more drain is called. -/
theorem call (h : Shared p pool notes E₀ w O E gone rest) :
    Shared p pool notes E₀ w (([.receive p 0] : List Frame) + O) E gone rest where
  pool := h.pool
  notes_eq := by simpa [Frame.evictingFrom] using h.notes_eq
  closes_eq := by simpa [Frame.raws] using h.closes_eq
  opens_eq := h.opens_eq

theorem gone_subset (h : Shared p pool notes E₀ w O E gone rest) {note : Note} (hn : note ∈ gone) :
    note ∈ notes := by
  rw [← Multiset.mem_coe, ← h.notes_eq]
  simp [hn]

end Shared

/-- The number of a death belongs to the wrapper that died, and to its slot. -/
theorem Scene.Valid.eq_of_entry_eq {sc : Scene σ} (hv : Valid sc) {p : PoolId}
    (hp : opensOf p sc.history < 2 ^ 64) {X : Identity} {slot : Slot}
    (h : sc.world.slot? p X = some slot) {k : WrapperId} {note : Note} (hd : sc.Died p k note)
    (he : slot.entry = note.entry) : slot.wrapper = k ∧ note.identity.Same X := by
  obtain ⟨⟨-, x, hx, hxp, hX⟩, hxe⟩ := hv.grounded.slots p X slot h
  rw [hx, Option.map_some, Option.some.injEq] at hxe
  obtain ⟨⟨⟨y, hy, hyp, hyX, hye, -⟩, -⟩, -⟩ := hd
  obtain rfl : slot.wrapper = k :=
    hv.numbered.entry_inj hv.owned hp hx hy hxp hyp (hxe.trans (he.trans hye.symm))
  obtain rfl : x = y := Option.some.inj (hx.symm.trans hy)
  exact ⟨rfl, hyX ▸ hX⟩

/-! ## Which thread is how far -/

/-- A caller makes a call. -/
def Act.isCall : Act σ → Bool
  | .call _ _ => true
  | _ => false

/-- The act belongs to drains of `p` by callers that come to `s₀`: one of them goes on, or one more
is called. None is called from inside a close of another. -/
def Moment.drains (p : PoolId) (s₀ : System σ) (m : Moment σ) : Bool :=
  match m.act with
  | .spawn => true
  | .call t c => c = .purge p && m.system.depth t = s₀.depth t
  | .turn t => s₀.depth t < m.system.depth t
  | .closed t _ => s₀.depth t < m.system.depth t
  | _ => false

namespace System

/-- The drains of `p` since `s₀`: `own` is what is left of them, thread by thread, above what the
threads were in the middle of. -/
structure Drainers (p : PoolId) (s₀ : System σ) (pool : Pool) (notes : List Note)
    (ms : List (Moment σ)) (s : System σ) (own : List (List Frame)) (gone rest : List Note) :
    Prop where
  shared : Shared p pool notes s₀.history s.world own.flatten s.history gone rest
  length_le : s₀.threads.length ≤ own.length
  threads : s.threads = own.mapIdx fun t mine => mine ++ s₀.threads[t]?.getD []
  purging : ∀ mine ∈ own, Purging p mine
  turns_eq : ms.countP (fun m => m.act.thread?.isSome) + s.world.turnsLeft p own.flatten
    = 4 * notes.length + ms.countP fun m => m.act.isCall
  done : (∃ m ∈ ms, m.act.isCall) → own.flatten = [] → s.world.pending p = []

namespace Drainers

variable {p : PoolId} {s₀ s s' : System σ} {pool : Pool} {notes gone rest : List Note}
  {ms : List (Moment σ)} {own : List (List Frame)} {t : ThreadId} {frames : List Frame}

theorem start (hpool : s₀.world.pools[p]? = some pool) (hq : pool.queue = some notes) :
    Drainers p s₀ pool notes [] s₀ (List.replicate s₀.threads.length []) [] notes := by
  have hpend : s₀.world.pending p = notes := by rw [World.pending_eq hpool, hq, Option.getD_some]
  refine ⟨⟨by simpa [← hq] using hpool, by simp, by simp, rfl⟩, by simp, ?_,
    fun mine hm => List.eq_of_mem_replicate hm ▸ .done, by simp [World.turnsLeft, hpend], by simp⟩
  apply List.ext_getElem?
  intro t
  rw [List.getElem?_mapIdx, List.getElem?_replicate]
  split
  · next ht => simp [List.getElem?_eq_getElem ht]
  · next ht => simp [List.getElem?_eq_none (Nat.le_of_not_lt ht)]

section

variable (hd : Drainers p s₀ pool notes ms s own gone rest)
include hd

theorem exists_own (ht : s.threads[t]? = some frames) :
    ∃ mine, own[t]? = some mine ∧ frames = mine ++ s₀.threads[t]?.getD [] := by
  rw [hd.threads, List.getElem?_mapIdx] at ht
  obtain ⟨mine, hmine, rfl⟩ := Option.map_eq_some_iff.1 ht
  exact ⟨mine, hmine, rfl⟩

theorem depth_eq {mine : List Frame} (ht : own[t]? = some mine) :
    s.depth t = mine.length + s₀.depth t := by
  simp [depth, hd.threads, ht]

theorem ne_nil {mine : List Frame} (ht : own[t]? = some mine) (hdepth : s₀.depth t < s.depth t) :
    mine ≠ [] := by
  rintro rfl
  rw [hd.depth_eq ht, List.length_nil, Nat.zero_add] at hdepth
  exact Nat.lt_irrefl _ hdepth

/-- The stack of a thread whose drain has gone on. -/
theorem threads_set (t : ThreadId) (mine : List Frame) :
    s.threads.set t (mine ++ s₀.threads[t]?.getD [])
      = (own.set t mine).mapIdx fun t mine => mine ++ s₀.threads[t]?.getD [] := by
  rw [List.mapIdx_set, hd.threads]

theorem mem_frames {mine : List Frame} (ht : own[t]? = some mine) {f : Frame} (hf : f ∈ mine) :
    f ∈ s.frames := by
  have hmem : mine ++ s₀.threads[t]?.getD [] ∈ s.threads := by
    apply List.mem_of_getElem? (i := t)
    rw [hd.threads, List.getElem?_mapIdx, ht, Option.map_some]
  exact List.mem_flatten.2 ⟨_, hmem, List.mem_append_left _ hf⟩

/-- The drains go on while nothing is opened. -/
theorem same_of_evict (hs : Sound s) (hp : opensOf p s₀.history < 2 ^ 64) {mine : List Frame}
    (ht : own[t]? = some mine) {note : Note} (hf : .evict p note ∈ mine) {e : Identity × Slot}
    (he : e ∈ (pool.slots.without (gone.map Note.entry)).toList) (hne : e.2.entry = note.entry) :
    e.1.Same note.identity := by
  obtain ⟨k, hdied⟩ := hs.valid.mourned.frames _ (Multiset.mem_coe.2 (hd.mem_frames ht hf))
  have hslot : s.scene.world.slot? p e.1 = some e.2 := by
    simp only [scene, World.slot?, hd.shared.pool, Option.bind_some]
    exact Slots.find?_of_mem he
  exact (hs.valid.eq_of_entry_eq (hd.shared.opens_eq ▸ hp) hslot hdied hne).2.symm

theorem next_spawn (ha : s.next? .spawn = some s') :
    Drainers p s₀ pool notes (⟨s, .spawn⟩ :: ms) s' (own ++ [[]]) gone rest := by
  have hflat : (own ++ [[]]).flatten = own.flatten := by simp
  have hnone : s₀.threads[own.length]? = none := List.getElem?_eq_none hd.length_le
  cases ha
  refine ⟨hflat ▸ hd.shared, hd.length_le.trans (by simp), ?_, ?_, ?_, ?_⟩
  · simp [hd.threads, List.mapIdx_concat, hnone]
  · simpa [or_imp, forall_and, Purging.done] using hd.purging
  · simpa [hflat, Act.thread?, Act.isCall] using hd.turns_eq
  · simpa [hflat, Act.isCall] using hd.done

/-- A drain is called where none is going on. -/
theorem next_call (hdepth : s.depth t = s₀.depth t) (ha : s.next? (.call t (.purge p)) = some s') :
    ∃ own', Drainers p s₀ pool notes (⟨s, .call t (.purge p)⟩ :: ms) s' own' gone rest := by
  obtain ⟨frames, ht, ha⟩ := Option.bind_eq_some_iff.1 ha
  obtain ⟨mine, hmine, rfl⟩ := hd.exists_own ht
  obtain rfl : mine = [] := by
    have := hd.depth_eq hmine
    exact List.length_eq_zero_iff.1 (by omega)
  obtain ⟨O, hO, hset⟩ := exists_others hmine
  rw [Multiset.coe_nil, zero_add] at hO
  have hshared := (hO ▸ hd.shared).call
  have hturns := hd.turns_eq
  split at ha
  · cases ha
    refine ⟨own.set t [.receive p 0], ?_, by simpa using hd.length_le, ?_, ?_, ?_, ?_⟩
    · rw [hset]
      exact hshared
    · exact hd.threads_set t [.receive p 0]
    · intro mine hm
      rcases List.mem_or_eq_of_mem_set hm with hold | rfl
      · exact hd.purging mine hold
      · exact .receive 0
    · simp only [World.turnsLeft, hset, hO] at hturns ⊢
      simp [Act.thread?, Act.isCall, Frame.turns] at hturns ⊢
      omega
    · intro _ hnil
      have := congrArg (Multiset.ofList ·) hnil
      simp [hset] at this
  · cases ha

/-- A drain goes on. -/
theorem next_turn (hs : Sound s) (hp : opensOf p s₀.history < 2 ^ 64) {a : Act σ} (hby : a.isBy t)
    (hdepth : s₀.depth t < s.depth t) (ha : s.next? a = some s') :
    ∃ own' gone' rest', Drainers p s₀ pool notes (⟨s, a⟩ :: ms) s' own' gone' rest' := by
  have hthread : a.thread? = some t := by cases a <;> cases hby <;> rfl
  obtain ⟨frames, turn, ht, hturn, rfl, -, -⟩ := exists_turn hthread ha
  obtain ⟨mine, hmine, rfl⟩ := hd.exists_own ht
  have hne := hd.ne_nil hmine hdepth
  obtain ⟨mine', hframes, -, hstep⟩ :=
    (hd.purging mine (List.mem_of_getElem? hmine)).drainStep hne (Act.yields_turn hturn)
  obtain ⟨O, hO, hset⟩ := exists_others hmine
  have hshared := hO ▸ hd.shared
  obtain ⟨gone', rest', hshared'⟩ :=
    hshared.step hstep fun note hf e he => hd.same_of_evict hs hp hmine hf he
  have hturns := hd.turns_eq
  refine ⟨own.set t mine', gone', rest', ?_, by simpa using hd.length_le, ?_, ?_, ?_, ?_⟩
  · rw [hset]
    exact hshared'
  · rw [take, hframes]
    exact hd.threads_set t mine'
  · intro mine hm
    rcases List.mem_or_eq_of_mem_set hm with hold | rfl
    · exact hd.purging mine hold
    · exact hstep.purging
  · have := hshared.turnsLeft_step hstep
    have hcall : a.isCall = false := by
      cases a with
      | call => cases hthread
      | _ => rfl
    rw [hO] at hturns
    rw [hset, take]
    simp only [List.countP_cons, hthread, hcall, Option.isSome_some, if_true]
    simp only [Bool.false_eq_true, if_false]
    omega
  · intro _ hnil
    have hmine' : mine' = [] := by
      have := congrArg (Multiset.ofList ·) hnil
      simp only [hset] at this
      exact (by simpa using this : mine' = [] ∧ O = 0).1
    subst hmine'
    exact hstep.pending_of_finish

end

/-- Every act of drains keeps their account. -/
theorem next (hd : Drainers p s₀ pool notes ms s own gone rest) (hs : Sound s)
    (hp : opensOf p s₀.history < 2 ^ 64) {a : Act σ} (hm : (⟨s, a⟩ : Moment σ).drains p s₀)
    (ha : s.next? a = some s') :
    ∃ own' gone' rest', Drainers p s₀ pool notes (⟨s, a⟩ :: ms) s' own' gone' rest' := by
  cases a with
  | spawn => exact ⟨_, _, _, hd.next_spawn ha⟩
  | call t c =>
    simp only [Moment.drains, Bool.and_eq_true, decide_eq_true_eq] at hm
    obtain ⟨rfl, hdepth⟩ := hm
    obtain ⟨own', hd'⟩ := hd.next_call hdepth ha
    exact ⟨own', gone, rest, hd'⟩
  | turn t => exact hd.next_turn hs hp (t := t) rfl (by simpa [Moment.drains] using hm) ha
  | closed t error => exact hd.next_turn hs hp (t := t) rfl (by simpa [Moment.drains] using hm) ha
  | _ => cases hm

theorem of_run (h : Run s₀ ms s) (hs : Sound s₀) (hp : opensOf p s₀.history < 2 ^ 64)
    (hpool : s₀.world.pools[p]? = some pool) (hq : pool.queue = some notes)
    (hms : ∀ m ∈ ms, m.drains p s₀) :
    ∃ own gone rest, Drainers p s₀ pool notes ms s own gone rest := by
  induction h with
  | refl => exact ⟨_, _, _, .start hpool hq⟩
  | next h ha ih =>
    obtain ⟨hm, hms⟩ := List.forall_mem_cons.1 hms
    obtain ⟨own, gone, rest, hd⟩ := ih hms
    exact hd.next (h.sound hs) hp hm ha

/-- A drain that is not over goes on by some act. -/
theorem exists_next (hd : Drainers p s₀ pool notes ms s own gone rest)
    (ht : s₀.depth t < s.depth t) :
    ∃ a s', (⟨s, a⟩ : Moment σ).drains p s₀ ∧ a.isBy t ∧ s.next? a = some s' := by
  have hframes : ∃ frames, s.threads[t]? = some frames := by
    rw [← Option.isSome_iff_exists]
    by_contra hnone
    simp [depth, Option.not_isSome_iff_eq_none.1 hnone] at ht
  obtain ⟨frames, hframes⟩ := hframes
  obtain ⟨mine, hmine, rfl⟩ := hd.exists_own hframes
  have hne := hd.ne_nil hmine ht
  obtain ⟨a, turn, hby, hturn⟩ :=
    (hd.purging mine (List.mem_of_getElem? hmine)).exists_turn hne s.world t
      (s₀.threads[t]?.getD [])
  cases a with
  | turn t' =>
    obtain rfl : t' = t := hby
    exact ⟨.turn t', _, by simpa [Moment.drains] using ht, rfl, by
      rw [next?_of_thread rfl, hframes, Option.bind_some, hturn, Option.map_some]⟩
  | closed t' error =>
    obtain rfl : t' = t := hby
    exact ⟨.closed t' error, _, by simpa [Moment.drains] using ht, rfl, by
      rw [next?_of_thread rfl, hframes, Option.bind_some, hturn, Option.map_some]⟩
  | _ => cases hby

/-- When no drain is going on any more, every death has been looked up. -/
theorem ended (hd : Drainers p s₀ pool notes ms s own gone rest)
    (hcall : ∃ m ∈ ms, m.act.isCall) (hover : ∀ t, s.depth t = s₀.depth t) :
    Shared p pool notes s₀.history s.world 0 s.history gone [] := by
  have hflat : own.flatten = [] := by
    refine List.flatten_eq_nil_iff.2 fun mine hm => ?_
    obtain ⟨t, ht⟩ := List.mem_iff_getElem?.1 hm
    have := hd.depth_eq ht
    have := hover t
    exact List.length_eq_zero_iff.1 (by omega)
  have hshared := hd.shared
  rw [hflat] at hshared
  obtain rfl : rest = [] := hshared.pending.symm.trans (hd.done hcall hflat)
  exact hshared

end Drainers

variable {p : PoolId} {s s' : System σ} {pool : Pool} {notes : List Note} {ms : List (Moment σ)}

/-- No death that waits has the number of a live wrapper's slot, or of a slot that is newer than the
deaths of its identity. -/
theorem Reachable.entry_not_mem (hs : s.Reachable) (hp : opensOf p s.history < 2 ^ 64)
    (hpool : s.world.pools[p]? = some pool) (hq : pool.queue = some notes) {e : Identity × Slot}
    (he : e ∈ pool.slots.toList) (hlive : s.world.isLive e.2.wrapper ∨
      ∀ note ∈ notes, note.identity.Same e.1 → note.entry < e.2.entry) :
    e.2.entry ∉ notes.map Note.entry := by
  intro hm
  obtain ⟨note, hn, hne⟩ := List.mem_map.1 hm
  have hpend : note ∈ s.scene.world.pending p := by
    simpa [scene, World.pending, hpool, hq] using hn
  obtain ⟨k, hdied⟩ := hs.valid.mourned.queues p note hpend
  have hslot : s.scene.world.slot? p e.1 = some e.2 := by
    simp only [scene, World.slot?, hpool, Option.bind_some]
    exact Slots.find?_of_mem he
  obtain ⟨hk, hsame⟩ := hs.valid.eq_of_entry_eq hp hslot hdied hne.symm
  rcases hlive with hl | hnewer
  · rw [World.isLive_iff, hk] at hl
    exact Nat.ne_of_gt hl hdied.1.1.strong_eq_zero
  · exact UInt64.lt_irrefl e.2.entry (hne ▸ hnewer note hn hsame)

/-- Drains of one pool by any number of callers, in any order, from any state. The slot of a live
wrapper stays throughout, and so does one that is newer than the deaths that wait for its identity.
A drain that is not over can go on, and the drains take four acts for each death and one for each
call at the most. When they are over, the queue is empty, the table has lost the slots with the
numbers of the deaths that waited, and no others, and nothing has been closed but the raw handles of
those deaths, each of them once. -/
theorem drain_order_irrelevant (hs : s.Reachable) (hp : opensOf p s.history < 2 ^ 64)
    (hpool : s.world.pools[p]? = some pool) (hq : pool.queue = some notes) (hrun : Run s ms s')
    (hms : ∀ m ∈ ms, m.drains p s) :
    (∀ e ∈ pool.slots.toList, (s.world.isLive e.2.wrapper ∨
        ∀ note ∈ notes, note.identity.Same e.1 → note.entry < e.2.entry) →
      ∃ pool', s'.world.pools[p]? = some pool' ∧ e ∈ pool'.slots.toList) ∧
    (∀ t, s.depth t < s'.depth t →
      ∃ a s'', (⟨s', a⟩ : Moment σ).drains p s ∧ a.isBy t ∧ s'.next? a = some s'') ∧
    (ms.countP fun m => m.act.thread?.isSome)
      ≤ 4 * notes.length + (ms.countP fun m => m.act.isCall) ∧
    ((∃ m ∈ ms, m.act.isCall) → (∀ t, s'.depth t = s.depth t) →
      s'.world.pools[p]? = some
        { pool with slots := pool.slots.without (notes.map Note.entry), queue := some [] } ∧
      collect Event.closes s'.history
        = collect Event.closes s.history + (notes.map Note.raw : List RawId) ∧
      ∀ note ∈ notes, s'.history.count (.closed note.raw) = 1) := by
  obtain ⟨own, gone, rest, hd⟩ := Drainers.of_run hrun hs.sound hp hpool hq hms
  refine ⟨fun e he hlive => ⟨_, hd.shared.pool, Slots.mem_without.2 ⟨he, fun hm => ?_⟩⟩,
    fun t ht => hd.exists_next ht, ?_, fun hcall hover => ?_⟩
  · obtain ⟨note, hn, hne⟩ := List.mem_map.1 hm
    exact hs.entry_not_mem hp hpool hq he hlive
      (hne ▸ List.mem_map_of_mem (hd.shared.gone_subset hn))
  · have := hd.turns_eq
    omega
  · have hend := hd.ended hcall hover
    have hgone : (gone : Multiset Note) = notes := by simpa using hend.notes_eq
    have hcloses : collect Event.closes s'.history
        = collect Event.closes s.history + (notes.map Note.raw : List RawId) := by
      simpa using hend.closes_eq
    refine ⟨?_, hcloses, fun note hn => ?_⟩
    · have hperm : gone.Perm notes := Multiset.coe_eq_coe.1 hgone
      rw [hend.pool, Slots.without_congr fun entry => (hperm.map Note.entry).mem_iff]
    · rw [count_closed]
      refine Multiset.count_eq_one_of_mem (hrun.reachable hs).valid.owned.nodup_closes ?_
      simp only [hcloses, Multiset.mem_add, Multiset.mem_coe]
      exact .inr (List.mem_map_of_mem hn)

/-- A thread holds one file and lets go of another. While the death is on its way, a second thread
opens that file anew in place of the dead slot, and lets go of it too. -/
def outdating : List (Act Unit) :=
  [.spawn, .spawn, .newPool {}, .call 0 (.acquire 0 ⟨.ofString "/b"⟩), .turn 0, .turn 0,
    .opened 0 (.ok ()), .turn 0, .turn 0, .call 0 (.acquire 0 ⟨.ofString "/a"⟩), .turn 0, .turn 0,
    .opened 0 (.ok ()), .turn 0, .turn 0, .call 1 (.acquire 0 ⟨.ofString "/a"⟩), .turn 1,
    .call 0 (.drop 1), .turn 0, .turn 0, .turn 1, .opened 1 (.ok ()), .turn 1, .turn 1,
    .call 1 (.drop 2), .turn 1, .turn 1]

theorem isSome_run_outdating : (({} : System Unit).run? outdating).isSome := by decide +kernel

def outdated : System Unit := (({} : System Unit).run? outdating).get isSome_run_outdating

/-- Both threads drain. The one that received the later death takes its slot out first. -/
def dividing : List (Act Unit) :=
  [.call 0 (.purge 0), .call 1 (.purge 0), .turn 0, .turn 1, .turn 1, .turn 1, .turn 0,
    .closed 1 none, .turn 0, .turn 1, .closed 0 (some .busy), .turn 0]

theorem isSome_run_dividing : (outdated.run? dividing).isSome := by decide +kernel

def divided : System Unit := (outdated.run? dividing).get isSome_run_dividing

theorem drain_order_irrelevant_divided :
    outdated.Reachable ∧ opensOf 0 outdated.history < 2 ^ 64 ∧
    ∃ pool notes, outdated.world.pools[0]? = some pool ∧ pool.queue = some notes ∧
      pool.slots.size = 2 ∧ notes.map Note.entry = [1, 2] ∧
      divided.world.pools[0]? = some
        { pool with slots := pool.slots.without [1, 2], queue := some [] } ∧
      collect Event.closes divided.history
        = collect Event.closes outdated.history + (notes.map Note.raw : List RawId) ∧
      ∀ note ∈ notes, divided.history.count (.closed note.raw) = 1 := by
  have hs : outdated.Reachable := ⟨outdating, (Option.some_get _).symm⟩
  have hrun : outdated.run? dividing = some divided := (Option.some_get _).symm
  have hp : opensOf 0 outdated.history < 2 ^ 64 := by decide +kernel
  have hms : ∀ m ∈ outdated.moments dividing, m.drains 0 outdated := by decide +kernel
  have hcall : ∃ m ∈ outdated.moments dividing, m.act.isCall := by decide +kernel
  have hover : ∀ t, divided.depth t = outdated.depth t := by
    have hlen : divided.threads = [[], []] ∧ outdated.threads = [[], []] := by decide +kernel
    intro t
    rw [depth, depth, hlen.1, hlen.2]
  obtain ⟨pool, hpool, notes, hq, hsize, hnotes⟩ : ∃ pool, outdated.world.pools[0]? = some pool ∧
      ∃ notes, pool.queue = some notes ∧ pool.slots.size = 2 ∧ notes.map Note.entry = [1, 2] :=
    ⟨_, rfl, _, rfl, by decide +kernel, by decide +kernel⟩
  obtain ⟨-, -, -, hend⟩ := drain_order_irrelevant hs hp hpool hq (run_moments hrun) hms
  obtain ⟨hpool', hcloses, honce⟩ := hend hcall hover
  exact ⟨hs, hp, pool, notes, hpool, hq, hsize, hnotes, hnotes ▸ hpool', hcloses, honce⟩

end System

end ReadPool
