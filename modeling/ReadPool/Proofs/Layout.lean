import Mathlib
import ReadPool.Proofs.Configuration
import ReadPool.Proofs.TableOrder

/-!
# Layouts

A configuration decides how the tables of a pool are laid out. A layout here is any way to keep the
entries of a table in order, which may go by the configuration, the pool and all that has happened.
A run whose tables are laid out anew after every act is compared with one whose tables are not, and
whose pools have the plainest configuration: nobody can tell them apart (`configuration_only_lays_out`).
-/

namespace ReadPool

/-- The order in which tables keep their entries. -/
structure Layout where
  arrange (history : List Event) (p : PoolId) (c : Config) (entries : List (Identity × Slot)) :
    List (Identity × Slot)
  perm : ∀ history p c entries, (arrange history p c entries).Perm entries

namespace Layout

def pool (L : Layout) (history : List Event) (p : PoolId) (pool : Pool) : Pool :=
  { pool with
    slots := ⟨L.arrange history p pool.config pool.slots.toList,
      (L.perm history p pool.config pool.slots.toList).symm.pairwise pool.slots.distinct
        fun hne hsame => hne hsame.symm⟩ }

/-- All tables, laid out anew. -/
def system (L : Layout) (s : System σ) : System σ :=
  { s with world := { s.world with pools := s.world.pools.mapIdx (L.pool s.history) } }

end Layout

/-- The same act, with the plainest configuration in place of any other that a pool can be made
with. -/
def Act.plain : Act σ → Act σ
  | .newPool c => .newPool (if c.fault? = none then {} else c)
  | a => a

namespace System

/-- The system after an act, where tables are laid out anew. -/
def nextIn? (L : Layout) (s : System σ) (a : Act σ) : Option (System σ) := (s.next? a).map L.system

def runIn? (L : Layout) (s : System σ) : List (Act σ) → Option (System σ)
  | [] => some s
  | a :: acts => (s.nextIn? L a).bind fun s => s.runIn? L acts

/-- The moments of such a run, last first. -/
def momentsIn (L : Layout) (s : System σ) : List (Act σ) → List (Moment σ)
  | [] => []
  | a :: acts => ((s.nextIn? L a).map fun s' => s'.momentsIn L acts).getD [] ++ [⟨s, a⟩]

/-- The systems are the same, but for the configurations of pools and the order of tables. -/
structure Matches (s s' : System σ) : Prop where
  world : s.world.Matches s'.world
  threads : s'.threads = s.threads
  held : s'.held = s.held
  history : s'.history = s.history

/-- Nothing that can be asked tells the systems apart: what threads are at, who holds what, where
streams stand and what is read from them, what waits in queues, and what there is to see and to find
in tables. -/
structure LooksLike (s s' : System σ) : Prop where
  threads : s'.threads = s.threads
  held : s'.held = s.held
  history : s'.history = s.history
  raws : s'.world.raws = s.world.raws
  wrappers : s'.world.wrappers = s.world.wrappers
  reads : ∀ k (f : σ → Except IoError (List UInt8) × σ),
    (s'.world.readThrough k f).map Prod.fst = (s.world.readThrough k f).map Prod.fst
  queues : ∀ p : PoolId, s'.world.pools[p]?.map Pool.queue = s.world.pools[p]?.map Pool.queue
  sizes : ∀ p : PoolId, s'.world.pools[p]?.map (·.slots.size) = s.world.pools[p]?.map (·.slots.size)
  debug : ∀ p : PoolId, s'.world.pools[p]?.map Pool.debug = s.world.pools[p]?.map Pool.debug
  slot? : ∀ p X, s'.world.slot? p X = s.world.slot? p X

end System

/-- Two moments with the same answer, the same log and the same events, at systems that look alike. -/
structure Moment.LooksLike (m m' : Moment σ) : Prop where
  system : m.system.LooksLike m'.system
  act : m'.act = m.act.plain
  answer? : m'.answer? = m.answer?
  log : m'.log = m.log
  events : m'.events = m.events

/-! ## Turns -/

namespace Turn.Matches

variable {turn turn' : Turn σ} {w w' : World σ}

theorem gained (h : turn.Matches turn') : turn'.gained = turn.gained := by
  rw [Turn.gained, Turn.gained, h.answer]

theorem events (h : turn.Matches turn') (hw : w.Matches w') (frames : List Frame) :
    turn'.events w' frames = turn.events w frames := by
  unfold Turn.events
  rw [h.answer, h.world.raws, hw.raws, hw.wrappers]
  simp only [hw.pending, hw.queue]

end Turn.Matches

@[simp] theorem Act.thread?_plain (a : Act σ) : a.plain.thread? = a.thread? := by cases a <;> rfl

theorem Act.rel_turn? (a : Act σ) {w w' : World σ} (h : w.Matches w') (frames : List Frame) :
    Option.Rel Turn.Matches (a.turn? w frames) (a.plain.turn? w' frames) := by
  cases a with
  | turn t => exact h.step frames
  | opened t result => exact h.opened frames result
  | closed t error => exact h.closed frames error
  | retired t => exact h.retired frames
  | _ => exact .none

/-! ## Systems -/

namespace System.Matches

variable {s s' : System σ}

theorem refl (s : System σ) : s.Matches s := ⟨.refl _, rfl, rfl, rfl⟩

theorem looksLike (h : s.Matches s') : s.LooksLike s' where
  threads := h.threads
  held := h.held
  history := h.history
  raws := h.world.raws
  wrappers := h.world.wrappers
  reads k f := map_eq_of_rel (h.world.readThrough k f) fun _ _ hread => hread.1
  queues := h.world.map_pools fun _ _ hpool => hpool.queue
  sizes := h.world.map_pools fun _ _ hpool => Slots.size_eq_of_perm hpool.slots
  debug := h.world.map_pools fun _ _ hpool => hpool.debug
  slot? := h.world.slot?

/-- Tables that are laid out anew still match. -/
theorem layOut (L : Layout) (h : s.Matches s') : (L.system s).Matches s' := by
  refine ⟨⟨h.world.raws, h.world.wrappers, ?_, fun p => ?_⟩, h.threads, h.held, h.history⟩
  · exact h.world.length_pools.trans (List.length_mapIdx ..).symm
  · rw [Layout.system, List.getElem?_mapIdx]
    apply rel_map_left (h.world.pools p)
    intro pool pool' hpool
    exact ⟨(L.perm ..).trans hpool.slots, hpool.next, hpool.queue⟩

theorem isOpen (h : s.Matches s') (p : PoolId) : s'.isOpen p = s.isOpen p := by
  rw [System.isOpen, System.isOpen, h.world.queue, frames, frames, h.threads]

theorem admits (h : s.Matches s') (c : Call) : s'.admits c = s.admits c := by
  cases c <;> simp only [System.admits, h.isOpen, h.held, frames, h.threads]

theorem take (h : s.Matches s') (t : ThreadId) (frames : List Frame) {turn turn' : Turn σ}
    (hturn : turn.Matches turn') :
    (s.take t frames turn).Matches (s'.take t frames turn') where
  world := hturn.world
  threads := by simp only [System.take, h.threads, hturn.frames]
  held := by simp only [System.take, h.held, hturn.gained]
  history := by simp only [System.take, h.history, hturn.events h.world]

/-- An act is possible in both or in neither, and they match afterwards. -/
theorem next? (h : s.Matches s') (a : Act σ) :
    Option.Rel Matches (s.next? a) (s'.next? a.plain) := by
  cases hthread : a.thread? with
  | some t =>
    rw [next?_of_thread hthread, next?_of_thread (a.thread?_plain.trans hthread), h.threads]
    cases s.threads[t]? with
    | none => exact .none
    | some frames =>
      rw [Option.bind_some, Option.bind_some]
      exact rel_map (a.rel_turn? h.world frames) fun _ _ hturn => h.take t frames hturn
  | none =>
    cases a with
    | spawn => exact .some { h with threads := congrArg (· ++ [[]]) h.threads }
    | newPool c =>
      simp only [Act.plain, System.next?, World.newPool_eq]
      cases hc : c.fault? with
      | none => exact .some { h with world := h.world.addPool c {} }
      | some fault =>
        rw [if_neg (by simp), hc]
        exact .none
    | call t c =>
      simp only [Act.plain, System.next?, h.threads, h.admits, h.held]
      cases s.threads[t]? with
      | none => exact .none
      | some frames =>
        rw [Option.bind_some, Option.bind_some]
        split
        · exact .some ⟨h.world, rfl, rfl, h.history⟩
        · exact .none
    | clone k =>
      simp only [Act.plain, System.next?, h.held]
      split
      · exact .some ⟨h.world.retain k, h.threads, rfl, h.history⟩
      · exact .none
    | closeReference k =>
      simp only [Act.plain, System.next?, h.held]
      split
      · exact .some ⟨h.world, h.threads, rfl, h.history⟩
      · exact .none
    | read k f =>
      simp only [Act.plain, System.next?, h.held]
      split
      · apply rel_map (h.world.readThrough k _)
        intro read read' hread
        exact ⟨hread.2, h.threads, rfl, h.history⟩
      · exact .none
    | _ => cases hthread

theorem nextIn? (L : Layout) (h : s.Matches s') (a : Act σ) :
    Option.Rel Matches (s.nextIn? L a) (s'.next? a.plain) :=
  rel_map_left (h.next? a) fun _ _ h => h.layOut L

/-- What is seen of an act. -/
theorem moment (h : s.Matches s') (a : Act σ) :
    Moment.LooksLike (⟨s, a⟩ : Moment σ) ⟨s', a.plain⟩ := by
  have hframes : (⟨s', a.plain⟩ : Moment σ).frames = (⟨s, a⟩ : Moment σ).frames := by
    rw [Moment.frames, Moment.frames, Act.thread?_plain, h.threads]
  have hrel : Option.Rel Turn.Matches (⟨s, a⟩ : Moment σ).turn? (⟨s', a.plain⟩ : Moment σ).turn? := by
    rw [Moment.turn?, Moment.turn?, hframes]
    exact a.rel_turn? h.world _
  refine ⟨h.looksLike, rfl, bind_eq_of_rel hrel fun _ _ hturn => hturn.answer,
    congrArg (·.getD []) (map_eq_of_rel hrel fun _ _ hturn => hturn.log), ?_⟩
  rw [Moment.events, Moment.events, hframes]
  exact congrArg (·.getD []) (map_eq_of_rel hrel fun _ _ hturn => hturn.events h.world _)

/-- A run in a layout and one without. -/
theorem run (L : Layout) (h : s.Matches s') (acts : List (Act σ)) :
    Option.Rel LooksLike (s.runIn? L acts) (s'.run? (acts.map Act.plain)) ∧
      List.Forall₂ Moment.LooksLike (s.momentsIn L acts) (s'.moments (acts.map Act.plain)) := by
  induction acts generalizing s s' with
  | nil => exact ⟨.some h.looksLike, .nil⟩
  | cons a acts ih =>
    have hrel := h.nextIn? L a
    have hfirst : List.Forall₂ Moment.LooksLike [(⟨s, a⟩ : Moment σ)] [⟨s', a.plain⟩] :=
      .cons (h.moment a) .nil
    rw [List.map_cons, runIn?, run?, momentsIn, moments]
    generalize s.nextIn? L a = v, s'.next? a.plain = v' at hrel ⊢
    cases hrel with
    | none => exact ⟨.none, hfirst⟩
    | some h =>
      obtain ⟨hrun, hmoments⟩ := ih h
      exact ⟨hrun, List.rel_append hmoments hfirst⟩

end System.Matches

namespace System

/-- Whatever settings there are and in whatever order, the last one of each kind makes the
configuration. There is a pool exactly if no count of shards was set, or the last one is a power of
two from two up; then it is one that tables can be made with, and if not, the error says what is
wrong with it. The pools that there are do not tell their configurations: in any layout, a run has
the same answers, logs and events as one with the plainest configuration, and nothing that can be
asked in between tells them apart. -/
theorem configuration_only_lays_out (settings : List Setting) :
    let c := Config.of settings
    let last? := (settings.filterMap Setting.shards?).getLast?
    c = { shards := last?
          capacity := (settings.filterMap Setting.capacity?).getLast?.getD 0 } ∧
    (∀ settings' : List Setting,
      settings'.filterMap Setting.shards? = settings.filterMap Setting.shards? →
      settings'.filterMap Setting.capacity? = settings.filterMap Setting.capacity? →
      Config.of settings' = c) ∧
    (∀ w : World σ,
      ((∃ made, w.newPool c = .ok made) ↔
        ∀ n, last? = some n → ∃ j, 1 ≤ j ∧ j ≤ 63 ∧ n.toNat = 2 ^ j) ∧
      (∀ made, w.newPool c = .ok made →
        made = w.addPool c ∧ ∀ n, last? = some n → 1 < n ∧ n.toNat.isPowerOfTwo) ∧
      ∀ e, w.newPool c = .error e ↔
        ((last? = some 0 ∨ last? = some 1) ∧
          e = .invalidConfig "shard_amount must be greater than 1") ∨
        ((∃ n, last? = some n ∧ 1 < n ∧ ∀ j, n.toNat ≠ 2 ^ j) ∧
          e = .invalidConfig "shard_amount must be a power of two")) ∧
    ∀ (L : Layout) (s : System σ) (acts : List (Act σ)),
      Option.Rel LooksLike (s.runIn? L acts) (s.run? (acts.map Act.plain)) ∧
      List.Forall₂ Moment.LooksLike (s.momentsIn L acts) (s.moments (acts.map Act.plain)) := by
  have hof := Config.of_eq settings
  have hshards : (settings.filterMap Setting.shards?).getLast? = (Config.of settings).shards := by
    rw [hof]
  refine ⟨hof, fun settings' hs hc => ?_, fun w => ?_, fun L s acts => (Matches.refl s).run L acts⟩
  · rw [Config.of_eq, hs, hc, hof]
  · simp only [hshards]
    refine ⟨?_, fun made hmade => ?_, fun e => ?_⟩
    · rw [← Config.fault?_eq_none_iff]
      simp [World.newPool_eq_ok_iff]
    · obtain ⟨hfault, rfl⟩ := World.newPool_eq_ok_iff.1 hmade
      refine ⟨rfl, fun n hn => ?_⟩
      rw [Config.fault?_eq_none_iff] at hfault
      obtain ⟨hlt, hpow⟩ := Config.exists_exponent_iff.1 (hfault n hn)
      exact ⟨hlt, Config.isPowerOfTwo_iff.1 hpow⟩
    · rw [World.newPool_eq_error_iff, ← Config.fault?_eq_tooFew_iff,
        ← Config.fault?_eq_notPowerOfTwo_iff]
      constructor
      · rintro ⟨fault, hfault, rfl⟩
        cases fault with
        | tooFew => exact .inl ⟨hfault, rfl⟩
        | notPowerOfTwo => exact .inr ⟨hfault, rfl⟩
      · rintro (⟨hfault, rfl⟩ | ⟨hfault, rfl⟩)
        · exact ⟨.tooFew, hfault, rfl⟩
        · exact ⟨.notPowerOfTwo, hfault, rfl⟩

/-- Tables with shards have their entries in the opposite order. -/
def sharded : Layout where
  arrange _ _ c entries := if c.shards.isSome then entries.reverse else entries
  perm _ _ c entries := by
    split
    · exact entries.reverse_perm
    · exact .refl _

/-- Two files are opened. -/
def filling (c : Config) : List (Act Unit) :=
  [.spawn, .newPool c, .call 0 (.acquire 0 ⟨.ofString "/a"⟩), .turn 0, .turn 0, .opened 0 (.ok ()),
    .turn 0, .turn 0, .call 0 (.acquire 0 ⟨.ofString "/b"⟩), .turn 0, .turn 0, .opened 0 (.ok ()),
    .turn 0, .turn 0]

/-- What tables keep, in their order. -/
def kept (s : System σ) : List (List Entry) :=
  s.world.pools.map fun pool => pool.slots.toList.map (·.2.entry)

/-- The tables differ, but nothing that is seen. -/
theorem configuration_only_lays_out_filling :
    Config.of [.shards 3, .capacity 4, .shards 8] = ⟨some 8, 4⟩ ∧
    ∃ s s', ({} : System Unit).runIn? sharded (filling ⟨some 8, 4⟩) = some s ∧
      ({} : System Unit).run? (filling {}) = some s' ∧ s.kept = [[0, 1]] ∧ s'.kept = [[1, 0]] ∧
      s.LooksLike s' := by
  obtain ⟨hof, -, -, hrun⟩ := configuration_only_lays_out (σ := Unit)
    [.shards 3, .capacity 4, .shards 8]
  have hkept : (({} : System Unit).runIn? sharded (filling ⟨some 8, 4⟩)).map kept
      = some [[0, 1]] := by decide +kernel
  have hkept' : (({} : System Unit).run? (filling {})).map kept = some [[1, 0]] := by
    decide +kernel
  obtain ⟨s, hs, hkept⟩ := Option.map_eq_some_iff.1 hkept
  obtain ⟨s', hs', hkept'⟩ := Option.map_eq_some_iff.1 hkept'
  have hplain : (filling ⟨some 8, 4⟩).map Act.plain = filling {} := rfl
  have hlooks := (hrun sharded {} (filling ⟨some 8, 4⟩)).1
  rw [hplain, hs, hs'] at hlooks
  cases hlooks with
  | some hlooks => exact ⟨hof.trans rfl, s, s', hs, hs', hkept, hkept', hlooks⟩

end System

end ReadPool
