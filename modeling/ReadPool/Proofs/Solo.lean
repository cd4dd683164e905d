import Mathlib
import ReadPool.Proofs.Reachable
import ReadPool.Proofs.Registry
import ReadPool.Proofs.Slots

/-!
# A caller on its own

One thread and one pool, with an opener and closes that answer by themselves. Every call comes to
its answer, and between calls the table of the pool is kempt: a referenced wrapper has its slot, and
a death that waits is that of the wrapper in its slot. Nothing here depends on entries, so it does
not matter how many opens there have been.
-/

namespace ReadPool

/-- The event is a call of a pool's opener. -/
def Event.isAsk (p : PoolId) : Event → Bool
  | asked q _ => q = p
  | _ => false

def asksOf (p : PoolId) (events : List Event) : Nat := events.countP (Event.isAsk p)

/-- What the caller makes of an answer. -/
def Answer.outcome : Answer → Outcome
  | acquired result => .acquired result
  | purged _ => .done
  | done => .done

namespace System

/-- One thread, and one pool that nothing was acquired from. -/
def alone (config : Config) : System σ where
  world := (({} : World σ).addPool config).1
  threads := [[]]

/-- What comes next on the thread: an action, or the environment's answer. -/
def turn? (env : Environment σ) (s : System σ) (frames : List Frame) : Option (Turn σ) :=
  match frames with
  | .opening _ X _ :: _ => s.world.opened frames (env.opening (asksOf 0 s.history) X)
  | .closing raw _ _ _ :: _ => s.world.closed frames (env.closing raw)
  | _ => s.world.step frames

def advance? (env : Environment σ) (s : System σ) : Option (System σ × Option Answer) :=
  s.threads[0]?.bind fun frames =>
    (s.turn? env frames).map fun turn => (s.take 0 frames turn, turn.answer)

/-- Goes on until the call is answered. -/
def settle (env : Environment σ) : Nat → System σ → Option (Answer × System σ)
  | 0, _ => none
  | fuel + 1, s =>
    match s.advance? env with
    | none => none
    | some (s, some answer) => some (answer, s)
    | some (s, none) => settle env fuel s

/-- A call with its answer. Each death that waits takes four turns, all else five at the most. -/
def call (env : Environment σ) (s : System σ) (c : Call) : Option (Outcome × System σ) :=
  (s.next? (.call 0 c)).bind fun s =>
    (s.settle env (4 * (s.world.pending 0).length + 5)).map fun (answer, s) => (answer.outcome, s)

/-- Something done by way of a reference that is held. -/
def whileHeld (s : System σ) (g : Nat) (after : Option (Outcome × System σ)) :
    Option (Outcome × System σ) :=
  if s.held.contains g then after else some (.absent, s)

def perform (env : Environment σ) (s : System σ) : Operation → Option (Outcome × System σ)
  | .acquire X => s.call env (.acquire 0 X)
  | .clone g => s.whileHeld g ((s.next? (.clone g)).map fun s => (.done, s))
  | .drop g => s.whileHeld g (s.call env (.drop g))
  | .close g => s.whileHeld g ((s.next? (.closeReference g)).map fun s => (.done, s))
  | .read g n => s.whileHeld g <|
    (s.world.readThrough g (env.reading n)).bind fun (result, _) =>
      (s.next? (.read g fun state => (env.reading n state).2)).map fun s => (.read result, s)
  | .purge => s.call env (.purge 0)

/-- The outcome of each operation, and how often the opener was called by then; none if an operation
does not come to its end. -/
def play (env : Environment σ) (s : System σ) :
    List Operation → Option (List (Outcome × Nat) × System σ)
  | [] => some ([], s)
  | op :: ops =>
    (s.perform env op).bind fun (outcome, s) =>
      (s.play env ops).map fun (outcomes, s') => ((outcome, asksOf 0 s.history) :: outcomes, s')

variable {env : Environment σ} {s s' : System σ} {frames rest : List Frame} {turn : Turn σ}

/-! ## Turns -/

theorem advance?_eq (ht : s.threads = [frames]) (h : s.turn? env frames = some turn) :
    s.advance? env = some (⟨turn.world, [turn.frames], turn.gained ++ s.held,
      turn.events s.world frames ++ s.history⟩, turn.answer) := by
  simp [advance?, ht, h, take]

/-- What comes next is an act of the system. -/
theorem exists_act {answer : Option Answer} (h : s.advance? env = some (s', answer)) :
    ∃ a, s.next? a = some s' := by
  simp only [advance?, Option.bind_eq_some_iff, Option.map_eq_some_iff, Prod.mk.injEq] at h
  obtain ⟨frames, ht, turn, hturn, rfl, -⟩ := h
  unfold turn? at hturn
  split at hturn
  · next p X observed rest =>
    refine ⟨.opened 0 (env.opening (asksOf 0 s.history) X), ?_⟩
    rw [next?, ht, Option.bind_some, hturn, Option.map_some]
  · next raw X entry cause rest =>
    refine ⟨.closed 0 (env.closing raw), ?_⟩
    rw [next?, ht, Option.bind_some, hturn, Option.map_some]
  · refine ⟨.turn 0, ?_⟩
    rw [next?, ht, Option.bind_some, hturn, Option.map_some]

theorem sound_alone (config : Config) : Sound (alone config : System σ) :=
  ⟨Scene.Valid.start.step .newPool, by simp [alone, Delivers]⟩

/-- What a call comes to is reached by acts of the system. -/
theorem settle_run {fuel : Nat} {answer : Answer} (h : s.settle env fuel = some (answer, s')) :
    ∃ acts, s.run? acts = some s' := by
  induction fuel generalizing s with
  | zero => cases h
  | succ fuel ih =>
    rw [settle] at h
    split at h
    · cases h
    · next s₁ answer₁ hadv =>
      obtain ⟨-, rfl⟩ := Prod.mk.inj (Option.some.inj h)
      obtain ⟨a, ha⟩ := exists_act hadv
      exact ⟨[a], by rw [run?, ha]; rfl⟩
    · next s₁ hadv =>
      obtain ⟨a, ha⟩ := exists_act hadv
      obtain ⟨acts, hacts⟩ := ih h
      exact ⟨a :: acts, by rw [run?, ha]; exact hacts⟩

theorem call_run {c : Call} {outcome : Outcome} (h : s.call env c = some (outcome, s')) :
    ∃ acts, s.run? acts = some s' := by
  obtain ⟨s₁, hnext, h⟩ := Option.bind_eq_some_iff.1 h
  obtain ⟨⟨answer, s₂⟩, hset, h⟩ := Option.map_eq_some_iff.1 h
  obtain ⟨-, rfl⟩ := Prod.mk.inj h
  obtain ⟨acts, hacts⟩ := settle_run hset
  exact ⟨.call 0 c :: acts, by rw [run?, hnext]; exact hacts⟩

theorem next_run {a : Act σ} {outcome : Outcome}
    (h : (s.next? a).map (fun s => (outcome, s)) = some (outcome', s')) :
    ∃ acts, s.run? acts = some s' := by
  obtain ⟨s₁, hnext, h⟩ := Option.map_eq_some_iff.1 h
  obtain ⟨-, rfl⟩ := Prod.mk.inj h
  exact ⟨[a], by rw [run?, hnext]; rfl⟩

theorem whileHeld_run {g : Nat} {after : Option (Outcome × System σ)} {outcome : Outcome}
    (h : s.whileHeld g after = some (outcome, s'))
    (hafter : after = some (outcome, s') → ∃ acts, s.run? acts = some s') :
    ∃ acts, s.run? acts = some s' := by
  unfold whileHeld at h
  split at h
  · exact hafter h
  · obtain ⟨-, rfl⟩ := Prod.mk.inj (Option.some.inj h)
    exact ⟨[], rfl⟩

theorem perform_run {op : Operation} {outcome : Outcome}
    (h : s.perform env op = some (outcome, s')) : ∃ acts, s.run? acts = some s' := by
  cases op with
  | acquire X => exact call_run h
  | clone g => exact whileHeld_run h next_run
  | drop g => exact whileHeld_run h call_run
  | close g => exact whileHeld_run h next_run
  | read g n =>
    apply whileHeld_run h
    intro h
    obtain ⟨_, -, h⟩ := Option.bind_eq_some_iff.1 h
    exact next_run h
  | purge => exact call_run h

/-- What a lone caller does is one of the runs of the system. -/
theorem play_run {ops : List Operation} {outcomes : List (Outcome × Nat)}
    (h : s.play env ops = some (outcomes, s')) : ∃ acts, s.run? acts = some s' := by
  induction ops generalizing s outcomes with
  | nil =>
    obtain ⟨-, rfl⟩ := Prod.mk.inj (Option.some.inj h)
    exact ⟨[], rfl⟩
  | cons op ops ih =>
    obtain ⟨⟨outcome, s₁⟩, hop, h⟩ := Option.bind_eq_some_iff.1 h
    obtain ⟨⟨outcomes', s₂⟩, hops, h⟩ := Option.map_eq_some_iff.1 h
    obtain ⟨-, rfl⟩ := Prod.mk.inj h
    obtain ⟨first, hfirst⟩ := perform_run hop
    obtain ⟨acts, hacts⟩ := ih hops
    exact ⟨first ++ acts, by rw [run?_append, hfirst]; exact hacts⟩

theorem Sound.advance (hs : Sound s) {answer : Option Answer}
    (h : s.advance? env = some (s', answer)) : Sound s' := by
  obtain ⟨a, ha⟩ := exists_act h
  exact hs.next ha

theorem settle_next (h : s.advance? env = some (s', none)) (fuel : Nat) :
    s.settle env (fuel + 1) = s'.settle env fuel := by
  rw [settle, h]

theorem settle_answer {answer : Answer} (h : s.advance? env = some (s', some answer))
    (fuel : Nat) : s.settle env (fuel + 1) = some (answer, s') := by
  rw [settle, h]

end System

/-! ## The table between calls -/

/-- What the table of a lone caller's pool is like between calls. -/
structure Kempt (w : World σ) : Prop where
  up : w.isUp 0
  home : ∀ (h : WrapperId) (x : Wrapper), w.wrappers[h]? = some x → x.home = 0
  live : ∀ (h : WrapperId) (x : Wrapper), w.wrappers[h]? = some x → 0 < x.strong →
    w.slot? 0 x.identity = some ⟨x.entry, h⟩
  dead : ∀ note ∈ w.pending 0, ∃ h, w.slot? 0 note.identity = some ⟨note.entry, h⟩ ∧ w.strong h = 0
  distinct : (w.pending 0).Pairwise fun a b => ¬ a.identity.Same b.identity

namespace Kempt

variable {w : World σ} {h : WrapperId} {x : Wrapper} {note : Note} {notes : List Note}

theorem alone (config : Config) : Kempt (({} : World σ).addPool config).1 where
  up := by simp [World.isUp, World.addPool]
  home h x hx := by simp at hx
  live h x hx := by simp at hx
  dead := by simp [World.pending, World.addPool]
  distinct := by simp [World.pending, World.addPool]

/-- What happens to raw handles does not matter to the table. -/
theorem updateRaw (hk : Kempt w) (raw : RawId) (f : RawHandle σ → RawHandle σ) :
    Kempt (w.updateRaw raw f) :=
  ⟨hk.up, hk.home, hk.live, hk.dead, hk.distinct⟩

/-- The references of a wrapper that had some are counted anew. -/
theorem recount (hk : Kempt w) (hx : w.wrappers[h]? = some x) (hpos : 0 < x.strong)
    (n : Nat → Nat) :
    Kempt (w.updateWrapper h fun x => { x with strong := n x.strong }) where
  up := hk.up
  home k y hy := by
    rw [World.getElem?_updateWrapper hx] at hy
    split at hy
    · cases hy
      exact hk.home h x hx
    · exact hk.home k y hy
  live k y hy hpos' := by
    rw [World.getElem?_updateWrapper hx] at hy
    split at hy
    · next hkh =>
      cases hy
      exact hkh ▸ hk.live h x hx hpos
    · exact hk.live k y hy hpos'
  dead note hnote := by
    obtain ⟨k, hslot, h0⟩ := hk.dead note hnote
    refine ⟨k, hslot, ?_⟩
    rw [World.strong_updateWrapper hx, if_neg, h0]
    rintro rfl
    exact Nat.ne_of_gt hpos ((World.strong_eq hx).symm.trans h0)
  distinct := hk.distinct

/-- The last reference goes, and the death is posted. -/
theorem post (hk : Kempt w) (hx : w.wrappers[h]? = some x) (hpos : 0 < x.strong) (raw : RawId)
    (hq : w.pending 0 = notes) :
    Kempt ((w.updateWrapper h fun x => { x with strong := 0, stream := none }).updatePool 0
      fun pool => { pool with queue := some (notes ++ [⟨x.identity, x.entry, raw⟩]) }) := by
  have hpend : ((w.updateWrapper h fun x => { x with strong := 0, stream := none }).updatePool 0
      fun pool => { pool with queue := some (notes ++ [⟨x.identity, x.entry, raw⟩]) }).pending 0
        = w.pending 0 ++ [⟨x.identity, x.entry, raw⟩] := by
    subst hq
    exact (World.pending_post (w := w.updateWrapper h _) (World.queue_of_isUp hk.up)).trans
      (if_pos rfl)
  -- A death that waits under the identity would be that of this wrapper, which is referenced.
  have hnew : ∀ note ∈ w.pending 0, ¬ note.identity.Same x.identity := by
    intro note hnote hs
    obtain ⟨k, hslot, h0⟩ := hk.dead note hnote
    rw [World.slot?_congr hs, hk.live h x hx hpos] at hslot
    obtain ⟨-, rfl⟩ : x.entry = note.entry ∧ h = k := by simpa using hslot
    exact Nat.ne_of_gt hpos ((World.strong_eq hx).symm.trans h0)
  refine ⟨World.isUp_updatePool hk.up fun _ _ => rfl, ?_, ?_, ?_, ?_⟩
  · intro k y hy
    rw [World.wrappers_updatePool, World.getElem?_updateWrapper hx] at hy
    split at hy
    · cases hy
      exact hk.home h x hx
    · exact hk.home k y hy
  · intro k y hy hpos'
    rw [World.wrappers_updatePool, World.getElem?_updateWrapper hx] at hy
    rw [World.slot?_updatePool, World.slot?_updateWrapper]
    split at hy
    · cases hy
      exact absurd hpos' (Nat.lt_irrefl 0)
    · exact hk.live k y hy hpos'
  · intro note hnote
    rw [hpend] at hnote
    rw [World.slot?_updatePool, World.slot?_updateWrapper]
    rcases List.mem_append.1 hnote with hold | hlast
    · obtain ⟨k, hslot, h0⟩ := hk.dead note hold
      refine ⟨k, hslot, ?_⟩
      rw [World.strong_updatePool, World.strong_updateWrapper hx]
      split
      · rfl
      · exact h0
    · obtain rfl := List.mem_singleton.1 hlast
      refine ⟨h, hk.live h x hx hpos, ?_⟩
      rw [World.strong_updatePool, World.strong_updateWrapper hx, if_pos rfl]
  · rw [hpend]
    refine List.pairwise_append.2
      ⟨hk.distinct, List.pairwise_singleton _ _, fun note hnote b hb => ?_⟩
    obtain rfl := List.mem_singleton.1 hb
    exact hnew note hnote

/-- A death is received, and its slot taken out. -/
theorem evict (hk : Kempt w) (hq : w.pending 0 = note :: notes) :
    Kempt ((w.updatePool 0 fun pool => { pool with queue := some notes }).updatePool 0
      fun pool => { pool with slots := pool.slots.evict note.identity note.entry }) := by
  have hpend : ((w.updatePool 0 fun pool => { pool with queue := some notes }).updatePool 0
      fun pool => { pool with slots := pool.slots.evict note.identity note.entry }).pending 0
        = notes :=
    (World.pending_updatePool _ _ _).trans ((World.pending_receive hq).trans (if_pos rfl))
  obtain ⟨h₀, hslot₀, hdead₀⟩ := hk.dead note (by rw [hq]; exact List.mem_cons_self)
  have hdistinct := hk.distinct
  rw [hq] at hdistinct
  obtain ⟨hfirst, hnotes⟩ := List.pairwise_cons.1 hdistinct
  have hslot (X : Identity) (hX : ¬ note.identity.Same X) :
      ((w.updatePool 0 fun pool => { pool with queue := some notes }).updatePool 0
        fun pool => { pool with slots := pool.slots.evict note.identity note.entry }).slot? 0 X
          = w.slot? 0 X := by
    rw [World.slot?_evict, if_neg fun hc => hX hc.2.1, World.slot?_updatePool]
  refine ⟨World.isUp_updatePool (World.isUp_updatePool hk.up fun _ _ => rfl) fun _ hu => hu,
    hk.home, ?_, ?_, ?_⟩
  · intro h x hx hpos
    have hlive := hk.live h x hx hpos
    rw [hslot, hlive]
    intro hs
    -- The slot would lead to a dead wrapper and to a live one.
    rw [World.slot?_congr hs, hlive] at hslot₀
    obtain ⟨-, rfl⟩ : x.entry = note.entry ∧ h = h₀ := by simpa using hslot₀
    exact Nat.ne_of_gt hpos ((World.strong_eq hx).symm.trans hdead₀)
  · intro note' hnote'
    rw [hpend] at hnote'
    obtain ⟨k, hslot', h0⟩ := hk.dead note' (by rw [hq]; exact List.mem_cons_of_mem _ hnote')
    exact ⟨k, (hslot _ (hfirst note' hnote')).trans hslot', h0⟩
  · rw [hpend]
    exact hnotes

end Kempt

/-! ## An acquisition that opens -/

namespace World

variable {w : World σ} {X : Identity} {state : σ} {pool : Pool} {slots : Slots}

/-- The world with one more stream, opened, wrapped and published in the pool. -/
def grow (w : World σ) (X : Identity) (state : σ) (entry : Entry) (slots : Slots) : World σ :=
  (((w.addRaw X state).1.updatePool 0 fun pool => { pool with next := pool.next + 1 }).addWrapper
    0 X entry w.raws.length).1.updatePool 0 fun pool => { pool with slots }

theorem getElem?_grow (entry : Entry) (k : WrapperId) :
    (w.grow X state entry slots).wrappers[k]? = if k = w.wrappers.length then
      some { identity := X, entry, home := 0, stream := some w.raws.length }
    else w.wrappers[k]? :=
  getElem?_addWrapper 0 X entry w.raws.length k

theorem pending_grow (entry : Entry) : (w.grow X state entry slots).pending 0 = w.pending 0 := by
  rw [grow, pending_updatePool, pending_addWrapper, pending_updatePool, pending_addRaw]

theorem slot?_grow (hp : w.pools[0]? = some pool) {entry : Entry}
    (hs : pool.slots.publish X none ⟨entry, w.wrappers.length⟩ = some slots) (Y : Identity) :
    (w.grow X state entry slots).slot? 0 Y
      = if X.Same Y then some ⟨entry, w.wrappers.length⟩ else w.slot? 0 Y := by
  have hp' : (((w.addRaw X state).1.updatePool 0 fun pool =>
      { pool with next := pool.next + 1 }).addWrapper 0 X entry w.raws.length).1.pools[0]?
        = some { pool with next := pool.next + 1 } := by
    rw [pools_addWrapper, getElem?_updatePool, if_pos rfl, pools_addRaw, hp, Option.map_some]
  rw [grow, slot?_publish hp' hs, slot?_addWrapper, slot?_updatePool, slot?_addRaw]
  simp

end World

theorem Kempt.grow {w : World σ} (hk : Kempt w) (hn : w.pending 0 = []) {X : Identity}
    (hX : w.slot? 0 X = none) (state : σ) {entry : Entry} {pool : Pool} {slots : Slots}
    (hp : w.pools[0]? = some pool)
    (hs : pool.slots.publish X none ⟨entry, w.wrappers.length⟩ = some slots) :
    Kempt (w.grow X state entry slots) where
  up := by
    unfold World.grow
    refine World.isUp_updatePool ?_ fun _ h => h
    exact World.isUp_updatePool (w := w) hk.up fun _ h => h
  home h x hx := by
    rw [World.getElem?_grow] at hx
    split at hx
    · cases hx
      rfl
    · exact hk.home h x hx
  live h x hx hpos := by
    rw [World.getElem?_grow] at hx
    rw [World.slot?_grow hp hs]
    split at hx
    · next hh =>
      cases hx
      rw [if_pos (Identity.Same.refl X), hh]
    · have hlive := hk.live h x hx hpos
      rw [if_neg, hlive]
      intro hXx
      rw [World.slot?_congr hXx, hlive] at hX
      cases hX
  dead note hnote := by simp [World.pending_grow, hn] at hnote
  distinct := by simp [World.pending_grow, hn]

/-! ## A drain -/

namespace System

variable {s s' : System σ} {rest : List Frame} {n : Nat} {note : Note} {notes : List Note}

/-- Nothing has changed but slots, queues, and how far raw handles have come. -/
structure Quiet (s s' : System σ) : Prop where
  wrappers : s'.world.wrappers = s.world.wrappers
  states : s'.world.raws.map RawHandle.state = s.world.raws.map RawHandle.state
  asks : asksOf 0 s'.history = asksOf 0 s.history

theorem Quiet.of_world (hw : s'.world = s.world)
    (ha : asksOf 0 s'.history = asksOf 0 s.history) : Quiet s s' :=
  ⟨by rw [hw], by rw [hw], ha⟩

theorem Quiet.trans {s'' : System σ} (h : Quiet s s') (h' : Quiet s' s'') : Quiet s s'' :=
  ⟨h'.wrappers.trans h.wrappers, h'.states.trans h.states, h'.asks.trans h.asks⟩

/-- A turn that does not answer the call. -/
theorem exists_next (env : Environment σ) (hs : Sound s) {frames : List Frame}
    (ht : s.threads = [frames])
    {turn : Turn σ} (h : s.turn? env frames = some turn) (ha : turn.answer = none) :
    ∃ s', (∀ fuel, s.settle env (fuel + 1) = s'.settle env fuel) ∧ Sound s' ∧
      s'.threads = [turn.frames] ∧ s'.world = turn.world ∧
      s'.history = turn.events s.world frames ++ s.history := by
  have hadv := advance?_eq ht h
  rw [ha] at hadv
  exact ⟨_, settle_next hadv, hs.advance hadv, rfl, rfl, rfl⟩

/-- A turn that answers the call. -/
theorem exists_answer (env : Environment σ) (hs : Sound s) {frames : List Frame}
    (ht : s.threads = [frames])
    {turn : Turn σ} (h : s.turn? env frames = some turn) {answer : Answer}
    (ha : turn.answer = some answer) :
    ∃ s', (∀ fuel, s.settle env (fuel + 1) = some (answer, s')) ∧ Sound s' ∧
      s'.threads = [turn.frames] ∧ s'.world = turn.world ∧
      s'.history = turn.events s.world frames ++ s.history := by
  have hadv := advance?_eq ht h
  rw [ha] at hadv
  exact ⟨_, settle_answer hadv, hs.advance hadv, rfl, rfl, rfl⟩

/-- A death is received, looked up and closed in four turns. -/
theorem settle_death (env : Environment σ) (hs : Sound s) (hk : Kempt s.world)
    (ht : s.threads = [.receive 0 n :: rest]) (hq : s.world.pending 0 = note :: notes) :
    ∃ s', (∀ fuel, s.settle env (fuel + 4) = s'.settle env fuel) ∧ Sound s' ∧
      s'.threads = [.receive 0 (n + 1) :: rest] ∧ Kempt s'.world ∧
      s'.world.pending 0 = notes ∧ Quiet s s' := by
  have hturn₁ : s.turn? env (.receive 0 n :: rest) = some
      { world := s.world.updatePool 0 fun pool => { pool with queue := some notes }
        frames := .evict 0 note :: .receive 0 (n + 1) :: rest } :=
    (World.Yields.received hq).step rfl
  obtain ⟨s₁, hset₁, hs₁, ht₁, hw₁, hE₁⟩ := exists_next env hs ht hturn₁ rfl
  obtain ⟨s₂, hset₂, hs₂, ht₂, hw₂, hE₂⟩ := exists_next env hs₁ ht₁ rfl rfl
  obtain ⟨s₃, hset₃, hs₃, ht₃, hw₃, hE₃⟩ := exists_next env hs₂ ht₂ rfl rfl
  obtain ⟨s₄, hset₄, hs₄, ht₄, hw₄, hE₄⟩ := exists_next env hs₃ ht₃ rfl rfl
  refine ⟨s₄, ?_, hs₄, ht₄, ?_, ?_, ?_⟩
  · intro fuel
    rw [hset₁, hset₂, hset₃, hset₄]
  · rw [hw₄, hw₃, hw₂, hw₁]
    exact ((hk.evict hq).updateRaw _ _).updateRaw _ _
  · rw [hw₄, hw₃, hw₂, hw₁]
    exact (World.pending_updatePool _ _ _).trans ((World.pending_receive hq).trans (if_pos rfl))
  · refine ⟨?_, ?_, ?_⟩
    · rw [hw₄, hw₃, hw₂, hw₁]
      rfl
    · rw [hw₄, hw₃, hw₂, hw₁]
      exact (World.states_updatePhase _ _).trans (World.states_updatePhase _ _)
    · rw [hE₄, hE₃, hE₂, hE₁]
      simp [Turn.events, asksOf, Event.isAsk, hq]

/-- A drain comes to its end, and then there is nothing more to receive. -/
theorem settle_drain (env : Environment σ) (hs : Sound s) (hk : Kempt s.world)
    (ht : s.threads = [.receive 0 n :: rest]) :
    ∃ s' m, (∀ fuel, s.settle env (fuel + 4 * (s.world.pending 0).length) = s'.settle env fuel) ∧
      Sound s' ∧ s'.threads = [.receive 0 m :: rest] ∧ Kempt s'.world ∧
      s'.world.pending 0 = [] ∧ Quiet s s' := by
  generalize hq : s.world.pending 0 = notes
  induction notes generalizing s n with
  | nil => exact ⟨s, n, fun _ => rfl, hs, ht, hk, hq, .of_world rfl rfl⟩
  | cons note notes ih =>
    obtain ⟨s₁, hset₁, hs₁, ht₁, hk₁, hq₁, hquiet₁⟩ := settle_death env hs hk ht hq
    obtain ⟨s', m, hset, hs', ht', hk', hq', hquiet⟩ := ih hs₁ hk₁ ht₁ hq₁
    refine ⟨s', m, fun fuel => ?_, hs', ht', hk', hq', hquiet₁.trans hquiet⟩
    rw [List.length_cons, Nat.mul_succ, ← Nat.add_assoc, hset₁, hset]

end System

end ReadPool
