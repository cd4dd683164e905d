import Mathlib
import ReadPool.Proofs.Cells
import ReadPool.Proofs.Rest

/-!
# A pool and its registry

For a lone caller a pool behaves as its registry does. What the registry keeps in one cell is spread
over wrappers, streams and slots; `Simulates` says that the two agree on every stream that is
referenced. Each operation keeps that and is answered alike, so whole runs are.
-/

namespace ReadPool

namespace System

/-- The registry and the pool agree on every stream that is referenced, on how many there were, and
on the calls of the opener. -/
structure Simulates (r : Registry σ) (s : System σ) : Prop where
  sound : s.Sound
  kempt : Kempt s.world
  proper : r.Proper
  cells : ∀ h, r.holding? h = s.world.cell? h
  generations : r.generations = s.world.wrappers.length
  attempts : r.attempts = asksOf 0 s.history

/-- The operation ends, and the pool has answered it as the registry does. -/
def Follows (env : Environment σ) (r : Registry σ) (s : System σ) (op : Operation) : Prop :=
  ∃ s', s.perform env op = some ((r.perform env op).1, s') ∧ s'.threads = [[]] ∧
    Simulates (r.perform env op).2 s'

variable {env : Environment σ} {r : Registry σ} {s s' : System σ} {X : Identity} {c : Cell σ}

namespace Simulates

theorem alone (config : Config) : Simulates ({} : Registry σ) (System.alone config) where
  sound := ⟨Scene.Valid.start.step .newPool, fun frames hf => by
    obtain rfl := List.mem_singleton.1 hf
    trivial⟩
  kempt := .alone config
  proper := .start_empty
  cells h := rfl
  generations := rfl
  attempts := rfl

theorem quiet (h : Simulates r s) (hs : Sound s') (hk : Kempt s'.world) (hq : Quiet s s') :
    Simulates r s' where
  sound := hs
  kempt := hk
  proper := h.proper
  cells k := (h.cells k).trans (World.cell?_congr hq.wrappers hq.states k).symm
  generations := h.generations.trans (congrArg List.length hq.wrappers).symm
  attempts := h.attempts.trans hq.asks.symm

/-- The wrapper of a stream that is referenced. -/
theorem exists_wrapper (h : Simulates r s) {g : Nat} (hc : r.holding? g = some c) :
    ∃ x raw raw', s.world.wrappers[g]? = some x ∧ x.stream = some raw ∧
      s.world.raws[raw]? = some raw' ∧ 0 < x.strong ∧
      c = ⟨x.identity, g, x.strong, raw'.state⟩ := by
  obtain ⟨x, raw, raw', hx, hraw, hr, rfl⟩ := World.exists_of_cell? ((h.cells g).symm.trans hc)
  exact ⟨x, raw, raw', hx, hraw, hr, h.sound.valid.strong_pos_of_cell hx hraw, rfl⟩

/-- The cell of a wrapper that is referenced. -/
theorem exists_cell (h : Simulates r s) {g : Nat} (hg : 0 < s.world.strong g) :
    ∃ x raw', s.world.wrappers[g]? = some x ∧
      r.holding? g = some ⟨x.identity, g, x.strong, raw'⟩ := by
  obtain ⟨x, raw, raw', hx, -, -, hc⟩ := h.sound.valid.exists_cell hg
  exact ⟨x, raw'.state, hx, (h.cells g).trans hc⟩

/-- The caller can use a reference exactly where the registry counts one. -/
theorem contains_iff (h : Simulates r s) (ht : s.threads = [[]]) (g : Nat) :
    s.held.contains g ↔ ∃ c, r.holding? g = some c := by
  have hstrong : s.world.strong g = s.held.count g := by
    have := h.sound.valid.referenced.strong_eq g
    simpa [scene, frames, ht] using this
  rw [List.contains_iff_mem, ← List.count_pos_iff, ← hstrong]
  constructor
  · intro hg
    obtain ⟨x, raw', -, hc⟩ := h.exists_cell hg
    exact ⟨_, hc⟩
  · rintro ⟨c, hc⟩
    obtain ⟨x, raw, raw', hx, -, -, hpos, -⟩ := h.exists_wrapper hc
    exact World.strong_eq hx ▸ hpos

/-! ## What is done by way of a reference -/

/-- What needs a reference is done on both sides or on neither. -/
theorem whileHeld (h : Simulates r s) (ht : s.threads = [[]]) {g : Nat}
    {f : Cell σ → Outcome × Registry σ} {after : Option (Outcome × System σ)}
    (hafter : ∀ c, r.holding? g = some c → s.held.contains g →
      ∃ s', after = some ((f c).1, s') ∧ s'.threads = [[]] ∧ Simulates (f c).2 s') :
    ∃ s', s.whileHeld g after = some ((r.whileHeld g f).1, s') ∧ s'.threads = [[]] ∧
      Simulates (r.whileHeld g f).2 s' := by
  unfold System.whileHeld Registry.whileHeld
  cases hc : r.holding? g with
  | none =>
    refine ⟨s, if_neg fun hh => ?_, ht, h⟩
    obtain ⟨c, hc'⟩ := (h.contains_iff ht g).1 hh
    exact absurd (hc.symm.trans hc') (by simp)
  | some c =>
    have hh := (h.contains_iff ht g).2 ⟨c, hc⟩
    obtain ⟨s', hs', ht', h'⟩ := hafter c hc hh
    exact ⟨s', (if_pos hh).trans hs', ht', h'⟩

/-- One more reference to a stream. -/
theorem retain (h : Simulates r s) {g : Nat} (hc : r.holding? g = some c) (hs : Sound s')
    (hw : s'.world = s.world.retain g) (ha : asksOf 0 s'.history = asksOf 0 s.history) :
    Simulates (r.update g Cell.retain) s' := by
  obtain ⟨x, raw, raw', hx, -, -, hpos, -⟩ := h.exists_wrapper hc
  refine ⟨hs, ?_, h.proper.update Registry.keeps_retain g, ?_, ?_,
    h.attempts.trans ha.symm⟩
  · rw [hw]
    exact h.kempt.recount hx hpos (· + 1)
  · intro k
    have hl : c.retain.isLive := by simp [Cell.isLive, Cell.retain]
    rw [Registry.holding?_update_of_isLive Registry.keeps_retain hc hl, hw, World.retain,
      World.cell?_recount hx (· + 1), ← h.cells, ← h.cells, hc]
    rfl
  · rw [hw, World.length_wrappers_retain]
    exact h.generations

/-- One reference fewer to a stream that has others. -/
theorem release (h : Simulates r s) {g : Nat} (hc : r.holding? g = some c) (hn : 1 < c.references)
    (hs : Sound s')
    (hw : s'.world = s.world.updateWrapper g fun x => { x with strong := x.strong - 1 })
    (ha : asksOf 0 s'.history = asksOf 0 s.history) : Simulates (r.update g Cell.release) s' := by
  obtain ⟨x, raw, raw', hx, -, -, hpos, -⟩ := h.exists_wrapper hc
  refine ⟨hs, ?_, h.proper.update Registry.keeps_release g, ?_, ?_,
    h.attempts.trans ha.symm⟩
  · rw [hw]
    exact h.kempt.recount hx hpos (· - 1)
  · intro k
    have hl : c.release.isLive := decide_eq_true (Nat.sub_pos_of_lt hn)
    rw [Registry.holding?_update_of_isLive Registry.keeps_release hc hl, hw,
      World.cell?_recount hx (· - 1), ← h.cells, ← h.cells, hc]
    rfl
  · rw [hw, World.length_wrappers_updateWrapper]
    exact h.generations

/-- The last reference to a stream goes, and its death is posted. -/
theorem releaseLast (h : Simulates r s) {g : Nat} (hc : r.holding? g = some c)
    (hn : c.references = 1) {x : Wrapper} (hx : s.world.wrappers[g]? = some x) (hpos : 0 < x.strong)
    (raw : RawId) (hs : Sound s')
    (hw : s'.world = (s.world.updateWrapper g fun x =>
      { x with strong := 0, stream := none }).updatePool 0 fun pool =>
        { pool with queue := some (s.world.pending 0 ++ [⟨x.identity, x.entry, raw⟩]) })
    (ha : asksOf 0 s'.history = asksOf 0 s.history) : Simulates (r.update g Cell.release) s' := by
  refine ⟨hs, ?_, h.proper.update Registry.keeps_release g, ?_, ?_,
    h.attempts.trans ha.symm⟩
  · rw [hw]
    exact h.kempt.post hx hpos raw rfl
  · intro k
    have hl : ¬ c.release.isLive := by simp [Cell.isLive, Cell.release, hn]
    rw [Registry.holding?_update Registry.keeps_release hc, if_neg hl, hw, h.cells]
    exact (World.cell?_giveUp hx k).symm
  · rw [hw, World.wrappers_updatePool, World.length_wrappers_updateWrapper]
    exact h.generations

theorem clone (h : Simulates r s) (ht : s.threads = [[]]) (g : Nat) :
    Follows env r s (.clone g) := by
  apply h.whileHeld ht
  intro c hc hh
  have hnext : s.next? (.clone g)
      = some { s with world := s.world.retain g, held := g :: s.held } := if_pos hh
  exact ⟨{ s with world := s.world.retain g, held := g :: s.held }, by rw [hnext, Option.map_some],
    ht, h.retain hc (h.sound.next hnext) rfl rfl⟩

theorem close (h : Simulates r s) (ht : s.threads = [[]]) (g : Nat) :
    Follows env r s (.close g) := by
  apply h.whileHeld ht
  intro c hc hh
  have hnext : s.next? (.closeReference g) = some s := if_pos hh
  exact ⟨s, by rw [hnext, Option.map_some], ht, h⟩

theorem read (h : Simulates r s) (ht : s.threads = [[]]) (g n : Nat) :
    Follows env r s (.read g n) := by
  apply h.whileHeld ht
  intro c hc hh
  obtain ⟨x, raw, raw', hx, hraw, hr, hpos, rfl⟩ := h.exists_wrapper hc
  have hnext : s.next? (.read g fun state => (env.reading n state).2) = some { s with
      world := s.world.updateRaw raw fun r => { r with state := (env.reading n r.state).2 } } := by
    rw [next?, if_pos hh, World.readThrough_eq hx hraw hr, Option.map_some]
  refine ⟨{ s with
      world := s.world.updateRaw raw fun r => { r with state := (env.reading n r.state).2 } },
    ?_, ht, h.sound.next hnext, h.kempt.updateRaw _ _, h.proper.update (Registry.keeps_leave _) g,
    ?_, h.generations, h.attempts⟩
  · rw [World.readThrough_eq hx hraw hr, Option.bind_some, hnext]
    rfl
  · intro k
    have ho := h.sound.valid.owned
    have hinj (k : WrapperId) (y : Wrapper) (hy : s.world.wrappers[k]? = some y)
        (hs : y.stream = some raw) : k = g := by
      have hk := ho.wrapped_of_stream k y raw hy hs
      exact (ho.wrapped_inj hk (ho.wrapped_of_stream g x raw hx hraw)).2
    have hl (state : σ) : (Cell.leave state ⟨x.identity, g, x.strong, raw'.state⟩).isLive :=
      decide_eq_true hpos
    rw [Registry.holding?_update_of_isLive (Registry.keeps_leave _) hc (hl _),
      World.cell?_read hx hraw hinj fun state => (env.reading n state).2, ← h.cells, ← h.cells, hc]
    rfl

/-! ## Calls -/

theorem exists_call (hs : Sound s) (ht : s.threads = [[]]) {c : Call} (hc : s.admits c) :
    ∃ s', s.next? (.call 0 c) = some s' ∧ Sound s' ∧ s'.threads = [c.frames] ∧
      s'.world = s.world ∧ s'.history = s.history := by
  have hnext : s.next? (.call 0 c)
      = some { s with threads := [c.frames], held := afterCall s.held c } := by
    simp [next?, ht, hc, isIdle]
  exact ⟨_, hnext, hs.next hnext, rfl, rfl, rfl⟩

theorem isOpen (h : Simulates r s) (ht : s.threads = [[]]) : s.isOpen 0 := by
  refine isOpen_iff.2 ⟨h.kempt.up, ?_⟩
  simp [frames, ht]

theorem drop (h : Simulates r s) (ht : s.threads = [[]]) (g : Nat) :
    Follows env r s (.drop g) := by
  apply h.whileHeld ht
  intro c hc hh
  obtain ⟨x, raw, raw', hx, hraw, -, hpos, rfl⟩ := h.exists_wrapper hc
  obtain ⟨s₁, hnext, hs₁, ht₁, hw₁, hE₁⟩ := exists_call h.sound ht (c := .drop g) hh
  rw [call, hnext, Option.bind_some]
  have hx₁ : s₁.world.wrappers[g]? = some x := hw₁ ▸ hx
  by_cases hlast : x.strong = 1
  · have hhome := h.kempt.home g x hx
    have hturn : s₁.turn? env [.drop g] = some
        { world := s₁.world.updateWrapper g fun x => { x with strong := 0, stream := none }
          frames := [.post 0 ⟨x.identity, x.entry, raw⟩] } := by
      have hstep : s₁.world.step [.drop g] = _ := (World.Yields.died hx₁ hlast hraw).step rfl
      rwa [hhome] at hstep
    obtain ⟨s₂, hset₂, hs₂, ht₂, hw₂, hE₂⟩ := exists_next env hs₁ ht₁ hturn rfl
    have hqueue : s₂.world.pools[0]?.bind Pool.queue = some (s.world.pending 0) := by
      rw [hw₂, hw₁]
      exact World.queue_of_isUp h.kempt.up
    have hturn₂ : s₂.turn? env [.post 0 ⟨x.identity, x.entry, raw⟩] = some
        ((s₂.world.updatePool 0 fun pool =>
            { pool with queue := some (s.world.pending 0 ++ [⟨x.identity, x.entry, raw⟩]) }).finish
          [] .done) := (World.Yields.posted hqueue).step rfl
    obtain ⟨s₃, hset₃, hs₃, ht₃, hw₃, hE₃⟩ := exists_answer env hs₂ ht₂ hturn₂ rfl
    refine ⟨s₃, ?_, ht₃, h.releaseLast hc hlast hx hpos raw hs₃ ?_ ?_⟩
    · rw [hset₂, hset₃]
      rfl
    · rw [hw₃, world_finish, hw₂, hw₁]
    · rw [hE₃, hE₂, hE₁]
      simp [Call.frames, Turn.events, hqueue, asksOf, Event.isAsk]
  · have hturn : s₁.turn? env [.drop g] = some
        ((s₁.world.updateWrapper g fun x => { x with strong := x.strong - 1 }).finish []
          .done) := (World.Yields.dropped (World.release_shared hx₁ hlast)).step rfl
    obtain ⟨s₂, hset₂, hs₂, ht₂, hw₂, hE₂⟩ := exists_answer env hs₁ ht₁ hturn rfl
    have hshared : 1 < x.strong := by omega
    refine ⟨s₂, ?_, ht₂, h.release hc hshared hs₂ ?_ ?_⟩
    · rw [hset₂]
      rfl
    · rw [hw₂, world_finish, hw₁]
    · rw [hE₂, hE₁]
      rfl

/-- A call that begins with a drain, when the drain has nothing more to receive. -/
theorem drained (h : Simulates r s) (env : Environment σ) (ht : s.threads = [[]]) {c : Call}
    (hc : s.admits c) {rest : List Frame} (hf : c.frames = .receive 0 0 :: rest) :
    ∃ s' m, s.call env c = (s'.settle env 5).map (fun (answer, s) => (answer.outcome, s)) ∧
      s'.threads = [.receive 0 m :: rest] ∧ Simulates r s' ∧ s'.world.pending 0 = [] ∧
      s'.turn? env (.receive 0 m :: rest) = some (s'.world.finish rest (.purged m)) := by
  obtain ⟨s₁, hnext, hs₁, ht₁, hw₁, hE₁⟩ := exists_call h.sound ht hc
  rw [hf] at ht₁
  obtain ⟨s₂, m, hset₂, hs₂, ht₂, hk₂, hq₂, hquiet⟩ := settle_drain env hs₁ (hw₁ ▸ h.kempt) ht₁
  have hquiet' := (Quiet.of_world hw₁ (by rw [hE₁])).trans hquiet
  refine ⟨s₂, m, ?_, ht₂, h.quiet hs₂ hk₂ hquiet', hq₂, ?_⟩
  · rw [call, hnext, Option.bind_some, Nat.add_comm, hset₂]
  · exact (World.Yields.drained hq₂).step rfl

theorem purge (h : Simulates r s) (env : Environment σ) (ht : s.threads = [[]]) :
    ∃ s', s.perform env .purge = some (.done, s') ∧ s'.threads = [[]] ∧ Simulates r s' ∧
      s'.world.pending 0 = [] := by
  obtain ⟨s₁, m, hcall, ht₁, h₁, hq₁, hturn⟩ :=
    h.drained env ht (c := .purge 0) (h.isOpen ht) rfl
  obtain ⟨s₂, hset₂, hs₂, ht₂, hw₂, hE₂⟩ := exists_answer env h₁.sound ht₁ hturn rfl
  refine ⟨s₂, ?_, ht₂, h₁.quiet hs₂ (hw₂ ▸ h₁.kempt) (.of_world hw₂ ?_), hw₂ ▸ hq₁⟩
  · rw [perform, hcall, hset₂]
    rfl
  · rw [hE₂]
    simp [Turn.events, hq₁, asksOf, Event.isAsk]

/-- With nothing to receive, the slot of an identity leads to its stream. -/
theorem slot?_of_current? (h : Simulates r s) (hc : r.current? X = some c) :
    ∃ entry, s.world.slot? 0 X = some ⟨entry, c.generation⟩ ∧ s.world.isLive c.generation := by
  obtain ⟨hg, hX⟩ := h.proper.current?_eq_some_iff.1 hc
  obtain ⟨x, raw, raw', hx, -, -, hpos, hcell⟩ := h.exists_wrapper hg
  have hident : c.identity = x.identity := congrArg Cell.identity hcell
  refine ⟨x.entry, ?_, World.isLive_iff.2 (World.strong_eq hx ▸ hpos)⟩
  rw [← World.slot?_congr hX, hident]
  exact h.kempt.live _ x hx hpos

theorem slot?_of_current?_eq_none (h : Simulates r s) (hc : r.current? X = none)
    (hq : s.world.pending 0 = []) (ht : s.threads = [[.lookUp 0 Y]]) :
    s.world.slot? 0 X = none := by
  cases hslot : s.world.slot? 0 X with
  | none => rfl
  | some slot =>
    exfalso
    have hv := h.sound.valid
    rcases Nat.eq_zero_or_pos (s.world.strong slot.wrapper) with h0 | hpos
    · -- A dead slot has its death on the way, and there is none.
      obtain ⟨note, hu, -⟩ := hv.tabled.mourned 0 X slot hslot h0
      simp [Scene.Underway, scene, frames, ht, hq] at hu
    · obtain ⟨⟨-, x, hx, -, hX⟩, -⟩ := hv.grounded.slots 0 X slot hslot
      obtain ⟨y, state, hy, hcell⟩ := h.exists_cell hpos
      obtain rfl : y = x := Option.some.inj (hy.symm.trans hx)
      have hcur : r.current? X = some ⟨y.identity, slot.wrapper, y.strong, state⟩ :=
        h.proper.current?_eq_some_iff.2 ⟨hcell, hX⟩
      exact absurd (hc.symm.trans hcur) (by simp)

/-- The opener is called once more. -/
theorem ask (h : Simulates r s) (hs : Sound s') (hw : s'.world = s.world)
    (ha : asksOf 0 s'.history = asksOf 0 s.history + 1) :
    Simulates { r with attempts := r.attempts + 1 } s' where
  sound := hs
  kempt := hw ▸ h.kempt
  proper := ⟨h.proper.distinct, h.proper.numbered, h.proper.lt⟩
  cells k := hw ▸ h.cells k
  generations := hw ▸ h.generations
  attempts := (congrArg (· + 1) h.attempts).trans ha.symm

/-- A stream is opened where none is referenced. -/
theorem start (h : Simulates r s) (hc : r.current? X = none) (hq : s.world.pending 0 = [])
    (hX : s.world.slot? 0 X = none) (state : σ) {pool : Pool} {slots : Slots} {entry : Entry}
    (hpool : s.world.pools[0]? = some pool)
    (hslots : pool.slots.publish X none ⟨entry, s.world.wrappers.length⟩ = some slots)
    (hs : Sound s') (hw : s'.world = s.world.grow X state entry slots)
    (ha : asksOf 0 s'.history = asksOf 0 s.history) : Simulates (r.start X state) s' := by
  have hlt : ∀ raw ∈ s.world.streams, raw < s.world.raws.length := fun raw hraw =>
    h.sound.valid.owned.lt_of_mem_raws (by simp [Scene.raws, scene, hraw])
  refine ⟨hs, ?_, h.proper.start X state, ?_, ?_, h.attempts.trans ha.symm⟩
  · rw [hw]
    exact h.kempt.grow hq hX state hpool hslots
  · intro k
    rw [h.proper.holding?_start hc, hw, World.cell?_grow hlt, h.generations, h.cells]
  · rw [hw]
    exact (congrArg (· + 1) h.generations).trans (World.length_wrappers_addWrapper 0 X _ _).symm

/-- An acquisition whose opener gives a stream. -/
theorem opened (h : Simulates r s) (env : Environment σ) (ht : s.threads = [[.opening 0 X none]])
    (hq : s.world.pending 0 = []) (hX : s.world.slot? 0 X = none) (hc : r.current? X = none)
    {state : σ} (hopen : env.opening (asksOf 0 s.history) X = .ok state) :
    ∃ s', s.settle env 3 = some (.acquired (.ok r.generations), s') ∧ s'.threads = [[]] ∧
      Simulates (r.start X state) s' := by
  obtain ⟨pool, notes, hpool, -⟩ := World.isUp_iff.1 h.kempt.up
  have hturn₀ : s.turn? env [.opening 0 X none] = some
      { world := (s.world.addRaw X state).1, frames := [.wrap 0 X none s.world.raws.length] } := by
    simp only [turn?, hopen, World.opened, World.snd_addRaw]
  obtain ⟨s₁, hset₁, hs₁, ht₁, hw₁, hE₁⟩ := exists_next env h.sound ht hturn₀ rfl
  have hpool₁ : s₁.world.pools[0]? = some pool := hw₁ ▸ hpool
  have hlen : s₁.world.wrappers.length = s.world.wrappers.length := by
    rw [hw₁, World.wrappers_addRaw]
  have hturn₁ : s₁.turn? env [.wrap 0 X none s.world.raws.length] = some
      { world := ((s₁.world.updatePool 0 fun pool => { pool with next := pool.next + 1 }).addWrapper
          0 X pool.next s.world.raws.length).1
        frames := [.publish 0 X none s.world.wrappers.length] } := by
    rw [← hlen]
    exact World.step_wrap hpool₁
  obtain ⟨s₂, hset₂, hs₂, ht₂, hw₂, hE₂⟩ := exists_next env hs₁ ht₁ hturn₁ rfl
  have hvacant : pool.slots.find? X = none := by
    rw [World.slot?, hpool] at hX
    exact hX
  obtain ⟨slots, hslots⟩ := Slots.exists_publish ⟨pool.next, s.world.wrappers.length⟩
    (show (pool.slots.find? X).map Slot.entry = none by rw [hvacant, Option.map_none])
  have hpool₂ : s₂.world.pools[0]? = some { pool with next := pool.next + 1 } := by
    rw [hw₂, World.pools_addWrapper, World.getElem?_updatePool, if_pos rfl, hpool₁, Option.map_some]
  have hwrapper : s₂.world.wrappers[s.world.wrappers.length]? = some
      { identity := X, entry := pool.next, home := 0, stream := some s.world.raws.length } := by
    rw [hw₂, World.getElem?_addWrapper, World.wrappers_updatePool, if_pos hlen.symm]
  have hturn₂ : s₂.turn? env [.publish 0 X none s.world.wrappers.length] = some
      ((s₂.world.updatePool 0 fun pool => { pool with slots }).finish []
        (.acquired (.ok s.world.wrappers.length)) [.published X pool.next none]) :=
    World.step_publish hpool₂ hwrapper hslots
  obtain ⟨s₃, hset₃, hs₃, ht₃, hw₃, hE₃⟩ := exists_answer env hs₂ ht₂ hturn₂ rfl
  refine ⟨s₃, ?_, ht₃, h.start hc hq hX state hpool hslots hs₃ ?_ ?_⟩
  · rw [hset₁, hset₂, hset₃, h.generations]
  · rw [hw₃, world_finish, hw₂, hw₁]
    rfl
  · rw [hE₃, hE₂, hE₁]
    simp [Turn.events, World.finish, isIdle, asksOf, Event.isAsk]

/-- An acquisition that has nothing more to receive. -/
theorem lookUp (h : Simulates r s) (env : Environment σ) (ht : s.threads = [[.lookUp 0 X]])
    (hq : s.world.pending 0 = []) :
    ∃ result s', s.settle env 4 = some (.acquired result, s') ∧ s'.threads = [[]] ∧
      (r.perform env (.acquire X)).1 = .acquired result ∧
      Simulates (r.perform env (.acquire X)).2 s' := by
  cases hc : r.current? X with
  | some c =>
    obtain ⟨entry, hslot, hl⟩ := h.slot?_of_current? hc
    have hturn : s.turn? env [.lookUp 0 X] = some
        ((s.world.retain c.generation).finish [] (.acquired (.ok c.generation))) :=
      (World.Yields.found hslot hl).step rfl
    obtain ⟨s₁, hset₁, hs₁, ht₁, hw₁, hE₁⟩ := exists_answer env h.sound ht hturn rfl
    simp only [Registry.perform, hc]
    obtain ⟨hg, -⟩ := h.proper.current?_eq_some_iff.1 hc
    refine ⟨.ok c.generation, s₁, hset₁ 3, ht₁, rfl, h.retain hg hs₁ hw₁ ?_⟩
    rw [hE₁]
    simp [Turn.events, World.finish, isIdle, asksOf, Event.isAsk]
  | none =>
    have hX := h.slot?_of_current?_eq_none hc hq ht
    have hturn : s.turn? env [.lookUp 0 X] = some
        { world := s.world, frames := [.opening 0 X none] } := by
      have hmissed : s.world.Yields [.lookUp 0 X] _ :=
        .missed fun slot hslot => by simp [hX] at hslot
      rw [hX] at hmissed
      exact hmissed.step rfl
    obtain ⟨s₁, hset₁, hs₁, ht₁, hw₁, hE₁⟩ := exists_next env h.sound ht hturn rfl
    have hasks : asksOf 0 s₁.history = asksOf 0 s.history + 1 := by
      rw [hE₁]
      simp [Turn.events, asksOf, Event.isAsk]
    have h₁ := h.ask hs₁ hw₁ hasks
    have hanswer : asksOf 0 s₁.history = r.attempts + 1 := by rw [hasks, h.attempts]
    simp only [Registry.perform, hc]
    cases hopen : env.opening (r.attempts + 1) X with
    | error e =>
      have hturn₁ : s₁.turn? env [.opening 0 X none] = some (s₁.world.finish []
          (.acquired (.error (.openFailed X e))) [.openFailed X e]) := by
        simp only [turn?, hanswer, hopen, World.opened]
      obtain ⟨s₂, hset₂, hs₂, ht₂, hw₂, hE₂⟩ := exists_answer env hs₁ ht₁ hturn₁ rfl
      refine ⟨.error (.openFailed X e), s₂, by rw [hset₁, hset₂], ht₂, rfl,
        h₁.quiet hs₂ (hw₂ ▸ h₁.kempt) (.of_world hw₂ ?_)⟩
      rw [hE₂]
      simp [Turn.events, asksOf]
    | ok state =>
      have hX₁ : s₁.world.slot? 0 X = none := hw₁ ▸ hX
      obtain ⟨s₂, hset₂, ht₂, h₂⟩ :=
        h₁.opened env ht₁ (hw₁ ▸ hq) hX₁ hc (hanswer ▸ hopen)
      exact ⟨.ok r.generations, s₂, by rw [hset₁, hset₂], ht₂, rfl, h₂⟩

theorem acquire (h : Simulates r s) (ht : s.threads = [[]]) (X : Identity) :
    Follows env r s (.acquire X) := by
  obtain ⟨s₁, m, hcall, ht₁, h₁, hq₁, hturn⟩ :=
    h.drained env ht (c := .acquire 0 X) (h.isOpen ht) rfl
  obtain ⟨s₂, hset₂, hs₂, ht₂, hw₂, hE₂⟩ := exists_next env h₁.sound ht₁ hturn rfl
  have h₂ : Simulates r s₂ := by
    refine h₁.quiet hs₂ (hw₂ ▸ h₁.kempt) (.of_world hw₂ ?_)
    rw [hE₂]
    simp [Turn.events, hq₁, asksOf, Event.isAsk]
  obtain ⟨result, s₃, hset₃, ht₃, hresult, h₃⟩ := h₂.lookUp env ht₂ (hw₂ ▸ hq₁)
  refine ⟨s₃, ?_, ht₃, h₃⟩
  rw [perform, hcall, hset₂, hset₃, hresult]
  rfl

/-! ## Runs -/

/-- Each operation ends, is answered alike, and leaves the two in agreement. -/
theorem perform (h : Simulates r s) (env : Environment σ) (ht : s.threads = [[]])
    (op : Operation) : Follows env r s op := by
  cases op with
  | acquire X => exact h.acquire ht X
  | clone g => exact h.clone ht g
  | drop g => exact h.drop ht g
  | close g => exact h.close ht g
  | read g n => exact h.read ht g n
  | purge =>
    obtain ⟨s', hp, ht', h', -⟩ := h.purge env ht
    exact ⟨s', hp, ht', h'⟩

theorem play (h : Simulates r s) (env : Environment σ) (ht : s.threads = [[]])
    (ops : List Operation) :
    ∃ s', s.play env ops = some ((r.play env ops).1, s') ∧ s'.threads = [[]] ∧
      Simulates (r.play env ops).2 s' := by
  induction ops generalizing r s with
  | nil => exact ⟨s, rfl, ht, h⟩
  | cons op ops ih =>
    obtain ⟨s₁, hop, ht₁, h₁⟩ := h.perform env ht op
    obtain ⟨s', hops, ht', h'⟩ := ih h₁ ht₁
    refine ⟨s', ?_, ht', h'⟩
    simp only [System.play, hop, Option.bind_some, hops, Option.map_some, Registry.play,
      h₁.attempts]

/-! ## After a purge -/

/-- What callers hold is what the registry counts as referenced. -/
theorem mem_heldIdentities_iff (h : Simulates r s) (ht : s.threads = [[]]) :
    X ∈ s.heldIdentities 0 ↔ ∃ c ∈ r.live, c.identity = X := by
  rw [mem_heldIdentities]
  constructor
  · rintro ⟨g, hg, x, hx, -, rfl⟩
    obtain ⟨c, hc⟩ := (h.contains_iff ht g).1 (List.contains_iff_mem.2 hg)
    obtain ⟨y, raw, raw', hy, -, -, -, rfl⟩ := h.exists_wrapper hc
    obtain rfl : y = x := Option.some.inj (hy.symm.trans hx)
    exact ⟨⟨y.identity, g, y.strong, raw'.state⟩, h.proper.mem_live_iff.2 hc, rfl⟩
  · rintro ⟨c, hc, rfl⟩
    have hg := h.proper.mem_live_iff.1 hc
    obtain ⟨x, raw, raw', hx, -, -, -, hcell⟩ := h.exists_wrapper hg
    exact ⟨c.generation, List.contains_iff_mem.1 ((h.contains_iff ht _).2 ⟨c, hg⟩), x, hx,
      h.kempt.home _ x hx, (congrArg Cell.identity hcell).symm⟩

theorem countDistinct_eq (h : Simulates r s) (ht : s.threads = [[]]) :
    Identity.countDistinct (s.heldIdentities 0) = r.live.length := by
  have hkeys : ((s.heldIdentities 0).map Identity.key).toFinset
      = (r.live.map fun c => c.identity.key).toFinset := by
    ext k
    simp only [List.mem_toFinset, List.mem_map, h.mem_heldIdentities_iff ht]
    constructor
    · rintro ⟨X, ⟨c, hc, rfl⟩, hk⟩
      exact ⟨c, hc, hk⟩
    · rintro ⟨c, hc, hk⟩
      exact ⟨c.identity, ⟨c, hc, rfl⟩, hk⟩
  have hnodup : (r.live.map fun c => c.identity.key).Nodup :=
    List.pairwise_map.2 ((h.proper.distinct.filter _).imp fun hne he =>
      hne (Identity.same_iff_key.2 he))
  rw [Identity.countDistinct_eq_card, hkeys, List.toFinset_card_of_nodup hnodup, List.length_map]

theorem resting (h : Simulates r s) (ht : s.threads = [[]]) {pool : Pool}
    (hp : s.world.pools[0]? = some pool) : Resting s 0 pool where
  valid := h.sound.valid
  frames := by simp [frames, ht]
  pool := hp
  live k x hl := h.kempt.live k x hl.1 hl.2.2.2

end Simulates

/-- A lone caller's operations all end, with the outcomes that the registry gives, and as many calls
of the opener by then. A purge after them leaves the table with one slot for each identity that is
referenced, and no stream open but theirs. -/
theorem pool_refines_registry (env : Environment σ) (config : Config) (ops : List Operation) :
    ∃ s, (alone config).play env ops = some ((({} : Registry σ).play env ops).1, s) ∧
    ∃ s' pool, s.perform env .purge = some (.done, s') ∧ s'.world.pools[0]? = some pool ∧
      (∀ X, (pool.slots.find? X).isSome
        ↔ ((({} : Registry σ).play env ops).2.current? X).isSome) ∧
      pool.slots.size = (({} : Registry σ).play env ops).2.live.length ∧
      opensOf 0 s'.history
        = closesOf 0 s'.history + (({} : Registry σ).play env ops).2.live.length := by
  obtain ⟨s, hplay, ht, h⟩ := (Simulates.alone config).play env rfl ops
  obtain ⟨s', hpurge, ht', h', hq⟩ := h.purge env ht
  obtain ⟨pool, notes, hpool, -⟩ := World.isUp_iff.1 h'.kempt.up
  have hr := h'.resting ht' hpool
  have hsize : pool.slots.size = (({} : Registry σ).play env ops).2.live.length :=
    (hr.size_eq_held hq).trans (h'.countDistinct_eq ht')
  refine ⟨s, hplay, s', pool, hpurge, hpool, ?_, hsize, ?_⟩
  · intro X
    rw [← hr.slot?_eq, hr.contains_iff hq, h'.proper.isSome_current?_iff]
    constructor
    · rintro ⟨Y, hY, hYX⟩
      obtain ⟨c, hc, rfl⟩ := (h'.mem_heldIdentities_iff ht').1 hY
      exact ⟨c, hc, hYX⟩
    · rintro ⟨c, hc, hcX⟩
      exact ⟨c.identity, (h'.mem_heldIdentities_iff ht').2 ⟨c, hc, rfl⟩, hcX⟩
  · rw [hr.opens_eq hq, hsize]

/-- What is acquired again is shared for as long as somebody holds it, and then opened anew. -/
example : ((alone {} : System Unit).play
      { opening := fun _ _ => .ok ()
        closing := fun _ => some .busy
        reading := fun _ s => (.ok [], s) }
      [.acquire ⟨.ofString "/a"⟩, .acquire ⟨.ofString "//a/."⟩, .drop 0, .drop 0, .clone 0,
        .acquire ⟨.ofString "/a"⟩]).map Prod.fst
    = some [(.acquired (.ok 0), 1), (.acquired (.ok 0), 1), (.done, 1), (.done, 1), (.absent, 1),
        (.acquired (.ok 1), 2)] := by decide +kernel

end System

end ReadPool
