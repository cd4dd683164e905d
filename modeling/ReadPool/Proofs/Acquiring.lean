import Mathlib
import ReadPool.Proofs.Moments
import ReadPool.Proofs.Purge

/-!
# An acquisition, act by act

What one acquisition has left to do always has one of a few shapes: it drains, or it is at some
point of the loop in which it looks up, opens, wraps and publishes, and discards what it has lost. `Move`
has a case for each act of its own with all that the act does, and `Called.keeps` is the induction
over a call: what its own acts keep, and what the acts of others keep, holds until it is answered.
-/

namespace ReadPool

/-- A death is received, looked up in the table or closed. -/
def Frame.isDrain : Frame → Bool
  | receive .. => true
  | evict .. => true
  | close _ _ _ .death => true
  | closing _ _ _ .death => true
  | _ => false

/-- What an acquisition has left to do itself, from its call to its answer. -/
inductive Acquiring (p : PoolId) (X : Identity) : List Frame → Prop where
  | drain {F : List Frame} (hF : Purging p F) : Acquiring p X (F ++ [.lookUp p X])
  | opening (observed : Option Entry) : Acquiring p X [.opening p X observed]
  | wrap (observed : Option Entry) (raw : RawId) : Acquiring p X [.wrap p X observed raw]
  | publish (observed : Option Entry) (h : WrapperId) : Acquiring p X [.publish p X observed h]
  | discard (h : WrapperId) : Acquiring p X [.discard h, .lookUp p X]
  | close (raw : RawId) (Y : Identity) (entry : Entry) :
      Acquiring p X [.close raw Y entry .lostRace, .lookUp p X]
  | closing (raw : RawId) (Y : Identity) (entry : Entry) :
      Acquiring p X [.closing raw Y entry .lostRace, .lookUp p X]

/-- An act of an acquisition's own, with what comes of it. -/
inductive Move (p : PoolId) (X : Identity) (w : World σ) : Act σ → List Frame → Turn σ → Prop where
  | drain {a : Act σ} {F F' : List Frame} {turn : Turn σ} (hF : Purging p F) (hne : F ≠ [])
      (hF' : Purging p F') (hdone : F' = [] → turn.world.pending p = [])
      (hframes : turn.frames = F' ++ [.lookUp p X])
      (hanswer : turn.answer = none) (hlog : ∀ Y entry, .lostRace Y entry ∉ turn.log) :
      Move p X w a (F ++ [.lookUp p X]) turn
  | miss {t : ThreadId} (hdead : ∀ slot, w.slot? p X = some slot → w.isLive slot.wrapper = false) :
      Move p X w (.turn t) [.lookUp p X]
        { world := w, frames := [.opening p X ((w.slot? p X).map Slot.entry)] }
  | hit {t : ThreadId} {slot : Slot} (hX : w.slot? p X = some slot) (hl : w.isLive slot.wrapper) :
      Move p X w (.turn t) [.lookUp p X]
        { world := w.retain slot.wrapper, frames := []
          answer := some (.acquired (.ok slot.wrapper)) }
  | openFailed {t : ThreadId} {observed : Option Entry} (e : IoError) :
      Move p X w (.opened t (.error e)) [.opening p X observed]
        { world := w, frames := [], log := [.openFailed X e]
          answer := some (.acquired (.error (.openFailed X e))) }
  | opened {t : ThreadId} {observed : Option Entry} (state : σ) :
      Move p X w (.opened t (.ok state)) [.opening p X observed]
        { world := (w.addRaw X state).1, frames := [.wrap p X observed w.raws.length] }
  | wrap {t : ThreadId} {observed : Option Entry} {raw : RawId} (entry : Entry) :
      Move p X w (.turn t) [.wrap p X observed raw]
        { world := ((w.updatePool p fun pool => { pool with next := pool.next + 1 }).addWrapper
            p X entry raw).1
          frames := [.publish p X observed w.wrappers.length] }
  | publish {t : ThreadId} {observed : Option Entry} {h : WrapperId} {x : Wrapper} {pool : Pool}
      {slots : Slots} (hx : w.wrappers[h]? = some x) (hp : w.pools[p]? = some pool)
      (hs : pool.slots.publish X observed ⟨x.entry, h⟩ = some slots) :
      Move p X w (.turn t) [.publish p X observed h]
        { world := w.updatePool p fun pool => { pool with slots }, frames := []
          log := [.published X x.entry observed], answer := some (.acquired (.ok h)) }
  | lose {t : ThreadId} {observed : Option Entry} {h : WrapperId} {entry : Entry}
      (hX : (w.slot? p X).map Slot.entry ≠ observed) :
      Move p X w (.turn t) [.publish p X observed h]
        { world := w, frames := [.discard h, .lookUp p X], log := [.lostRace X entry] }
  | discard {t : ThreadId} {h : WrapperId} {raw : RawId} {Y : Identity} {entry : Entry} :
      Move p X w (.turn t) [.discard h, .lookUp p X]
        { world := w.updateWrapper h fun x => { x with strong := 0, stream := none }
          frames := [.close raw Y entry .lostRace, .lookUp p X] }
  | close {t : ThreadId} {raw : RawId} {Y : Identity} {entry : Entry} :
      Move p X w (.turn t) [.close raw Y entry .lostRace, .lookUp p X]
        { world := w.updateRaw raw fun r => { r with phase := .closing }
          frames := [.closing raw Y entry .lostRace, .lookUp p X] }
  | closed {t : ThreadId} {raw : RawId} {Y : Identity} {entry : Entry} (error : Option IoError) :
      Move p X w (.closed t error) [.closing raw Y entry .lostRace, .lookUp p X]
        { world := w.updateRaw raw fun r => { r with phase := .closed }
          frames := [.lookUp p X], log := World.closeReport Y entry .lostRace error }

namespace Acquiring

variable {p : PoolId} {X : Identity} {w : World σ} {own : List Frame} {a : Act σ} {turn : Turn σ}

theorem ne_nil (h : Acquiring p X own) : own ≠ [] := by
  cases h <;> simp

/-- A call waits for nobody but at the top of what it has left to do. -/
theorem not_isWaiting (h : Acquiring p X own) : ∀ f ∈ own.tail, f.isWaiting = false := by
  cases h with
  | drain hF => cases hF <;> simp [Frame.isWaiting]
  | _ => simp [Frame.isWaiting]

theorem call (p : PoolId) (X : Identity) : Acquiring p X (Call.acquire p X).frames :=
  .drain (.receive 0)

/-- A drain in front of a look-up goes on, or comes to its end. -/
theorem move_drain {F : List Frame} (hF : Purging p F) (hne : F ≠ [])
    (h : w.Yields (F ++ [.lookUp p X]) turn) : Move p X w a (F ++ [.lookUp p X]) turn := by
  cases hF with
  | receive n =>
    cases h with
    | drained hq =>
      exact .drain (.receive n) hne .done (fun _ => hq) rfl rfl (by simp [World.finish])
    | received => exact .drain (.receive n) hne (.evict _ (n + 1)) (by simp) rfl rfl (by simp)
  | evict note n =>
    cases h with
    | evicted => exact .drain (.evict note n) hne (.close _ _ _ n) (by simp) rfl rfl (by simp)
  | close raw Y entry n =>
    cases h with
    | closing =>
      exact .drain (.close raw Y entry n) hne (.closing _ _ _ n) (by simp) rfl rfl (by simp)
  | closing raw Y entry n =>
    cases h with
    | closed error =>
      refine .drain (.closing raw Y entry n) hne (.receive n) (by simp) rfl rfl ?_
      cases error <;> simp [World.finish, World.closeReport]
  | done => exact absurd rfl hne

/-- What an acquisition does next. -/
theorem move {O : Multiset Frame} {H : Multiset WrapperId} {E : List Event}
    (hown : Acquiring p X own) (hv : Scene.Valid ⟨w, own + O, H, E⟩)
    (h : a.turn? w own = some turn) : Move p X w a own turn := by
  have hyields := Act.yields_turn h
  cases hown with
  | @drain F hF =>
    by_cases hne : F = []
    · -- The drain is over, so the look-up comes.
      subst hne
      cases a with
      | turn t =>
        cases hyields with
        | found hX hl => exact .hit hX hl
        | missed hdead => exact .miss hdead
      | _ => cases h
    · exact move_drain hF hne hyields
  | opening observed =>
    cases a with
    | opened t result =>
      cases result with
      | error e =>
        cases h
        exact .openFailed e
      | ok state =>
        cases h
        exact .opened state
    | _ => cases h
  | wrap observed raw =>
    cases a with
    | turn t =>
      cases h
      exact .wrap _
    | _ => cases h
  | publish observed k =>
    obtain ⟨pool, hp⟩ := exists_pool hv (p := p) (by simp [Frame.acquiring])
    obtain ⟨-, x, hx, -, -⟩ := hv.grounded.frames (.publish p X observed k) (by simp)
    cases a with
    | turn t =>
      cases hyields with
      | published hs =>
        rw [World.entry_eq hx]
        exact .publish hx hp (World.publish?_eq hp hx ▸ hs)
      | lost hs => exact .lose ((World.publish?_eq_none_iff hp).1 hs)
    | _ => cases h
  | discard k =>
    cases a with
    | turn t =>
      cases hyields with
      | unwrapped => exact .discard
      | shared hs => exact absurd hs (intoRaw?_ne_none hv (by simp [Frame.trial]))
    | _ => cases h
  | close raw Y entry =>
    cases a with
    | turn t =>
      cases h
      exact .close
    | _ => cases h
  | closing raw Y entry =>
    cases a with
    | closed t error =>
      cases h
      exact .closed error
    | _ => cases h

end Acquiring

/-- What a drain does, but for its end, is nothing that an acquisition does itself. -/
theorem Purging.events {p : PoolId} {w : World σ} {F : List Frame} {turn : Turn σ}
    (hF : Purging p F) (hne : F ≠ []) (rest : List Frame) :
    ∀ ev ∈ turn.events w (F ++ rest),
      ev = .drained p ∨ ∃ raw, ev = .closing raw .death ∨ ev = .closed raw := by
  cases hF with
  | receive n =>
    simp only [Turn.events, List.cons_append]
    split <;> simp
  | evict note n => simp [Turn.events]
  | close raw Y entry n => simp [Turn.events]
  | closing raw Y entry n => simp [Turn.events]
  | done => exact absurd rfl hne

/-- What a drain does not do is not seen in what happens. -/
theorem Purging.any_events {p : PoolId} {w : World σ} {F : List Frame} {turn : Turn σ}
    (hF : Purging p F) (hne : F ≠ []) (rest : List Frame) {f : Event → Bool}
    (hdrained : f (.drained p) = false) (hclosing : ∀ raw, f (.closing raw .death) = false)
    (hclosed : ∀ raw, f (.closed raw) = false) : (turn.events w (F ++ rest)).any f = false := by
  rw [List.any_eq_false]
  intro ev hev
  rcases hF.events hne rest ev hev with rfl | ⟨raw, rfl | rfl⟩ <;>
    simp [hdrained, hclosing, hclosed]

theorem Purging.isDrain {p : PoolId} {F : List Frame} (hF : Purging p F) (hne : F ≠ [])
    (rest : List Frame) : (F ++ rest).head?.any Frame.isDrain := by
  cases hF with
  | done => exact absurd rfl hne
  | _ => rfl

namespace Move

variable {p : PoolId} {X : Identity} {w : World σ} {own : List Frame} {a : Act σ} {turn : Turn σ}

/-- An acquisition goes on until it is answered. -/
theorem acquiring (h : Move p X w a own turn) :
    Acquiring p X turn.frames ∨
      turn.frames = [] ∧ ∃ result, turn.answer = some (.acquired result) := by
  cases h with
  | drain hF hne hF' hdone hframes => exact .inl (hframes ▸ .drain hF')
  | miss => exact .inl (.opening _)
  | hit => exact .inr ⟨rfl, _, rfl⟩
  | openFailed => exact .inr ⟨rfl, _, rfl⟩
  | opened => exact .inl (.wrap _ _)
  | wrap => exact .inl (.publish _ _)
  | publish => exact .inr ⟨rfl, _, rfl⟩
  | lose => exact .inl (.discard _)
  | discard => exact .inl (.close _ _ _)
  | close => exact .inl (.closing _ _ _)
  | closed => exact .inl (.drain .done)

/-- A drain is not begun again. -/
theorem isDrain_eq_false (h : Move p X w a own turn) (hown : own.head?.any Frame.isDrain = false) :
    turn.frames.head?.any Frame.isDrain = false := by
  cases h with
  | drain hF hne => exact absurd (hF.isDrain hne _) (Bool.eq_false_iff.1 hown)
  | _ => simp [Frame.isDrain]

/-- After its drain an acquisition finds nothing more to receive, but for what others post. -/
theorem pending_eq_nil (h : Move p X w a own turn)
    (hq : own.head?.any Frame.isDrain = false → w.pending p = [])
    (hown : turn.frames.head?.any Frame.isDrain = false) : turn.world.pending p = [] := by
  cases h with
  | @drain a F F' turn hF hne hF' hdone hframes =>
    refine hdone ?_
    by_contra hne'
    rw [hframes] at hown
    exact absurd (hF'.isDrain hne' _) (Bool.eq_false_iff.1 hown)
  | _ => simpa using hq rfl

/-- A drain goes on until there is nothing left to do before the look-up. -/
theorem of_drain {F : List Frame} (h : Move p X w a own turn) (hown : own = F ++ [.lookUp p X])
    (hF : Purging p F) (hne : F ≠ []) :
    ∃ F', Purging p F' ∧ turn.frames = F' ++ [.lookUp p X] := by
  cases h with
  | drain _ _ hF' _ hframes => exact ⟨_, hF', hframes⟩
  | _ => cases hF <;> simp_all

end Move

namespace System

variable {s₀ s s' : System σ} {ms : List (Moment σ)} {a : Act σ} {t : ThreadId} {p : PoolId}
  {X : Identity} {below own nested : List Frame} {turn : Turn σ}

/-- An acquisition has `own` to do above `below`, and what others called before that; it is over
where it has nothing left to do. -/
structure Acquires (s : System σ) (t : ThreadId) (p : PoolId) (X : Identity)
    (below own nested : List Frame) : Prop extends Stacked s t below own nested where
  waits : isIdle below
  shape : Acquiring p X own ∨ own = [] ∧ nested = []

/-- An act of an acquisition's own. -/
structure Moves (s : System σ) (a : Act σ) (s' : System σ) (t : ThreadId) (p : PoolId)
    (X : Identity) (below own : List Frame) (turn : Turn σ) : Prop where
  act : s.next? a = some s'
  move : Move p X s.world a own turn
  isOwn : (⟨s, a⟩ : Moment σ).isOwn t below.length
  thread : a.thread? = some t
  next : s' = s.take t (own ++ below) (turn.above below)
  frames : (⟨s, a⟩ : Moment σ).frames = own ++ below
  turn : (⟨s, a⟩ : Moment σ).turn? = some (turn.above below)

namespace Moves

variable (h : Moves s a s' t p X below own turn)
include h

theorem world : s'.world = turn.world := by
  rw [h.next]
  rfl

theorem own_ne_nil : own ≠ [] := by
  cases h.move with
  | drain => simp
  | _ => simp

theorem events : (⟨s, a⟩ : Moment σ).events = turn.events s.world own := by
  obtain ⟨f, rest, hown⟩ := List.exists_cons_of_ne_nil h.own_ne_nil
  rw [Moment.events, h.turn, h.frames, hown]
  exact Turn.events_above f rest

theorem log : (⟨s, a⟩ : Moment σ).log = turn.log := by
  rw [Moment.log, h.turn]
  rfl

theorem answer? : (⟨s, a⟩ : Moment σ).answer? = turn.answer := by
  rw [Moment.answer?, h.turn]
  rfl

theorem mem_frames {f : Frame} (hf : f ∈ own) : f ∈ s.frames := by
  have hframes := h.frames
  rw [Moment.frames, h.thread, Option.bind_some] at hframes
  cases ht : s.threads[t]? with
  | none => simp [ht, h.own_ne_nil] at hframes
  | some frames =>
    rw [ht, Option.getD_some] at hframes
    exact List.mem_flatten.2 ⟨_, List.mem_of_getElem? ht, by simp [hframes, hf]⟩

end Moves

theorem Called.start {c : Call} (h : s₀.next? (.call t c) = some s) : Called s₀ t c [] s :=
  ⟨⟨s, h, .refl⟩, by simp⟩

theorem Called.tail {c : Call} (h : Called s₀ t c (⟨s, a⟩ :: ms) s') :
    Called s₀ t c ms s ∧ s₀.depth t < s.depth t ∧ s.next? a = some s' := by
  obtain ⟨⟨s₁, hcall, hrun⟩, hgoing⟩ := h
  cases hrun with
  | next hrun ha =>
    exact ⟨⟨⟨s₁, hcall, hrun⟩, fun m hm => hgoing m (List.mem_cons_of_mem _ hm)⟩,
      hgoing _ List.mem_cons_self, ha⟩

theorem Called.prefix {c : Call} {later : List (Moment σ)} (h : Called s₀ t c (later ++ ms) s) :
    ∃ s', Called s₀ t c ms s' := by
  induction later generalizing s with
  | nil => exact ⟨s, h⟩
  | cons m later ih => exact ih h.tail.1

theorem Called.sound {c : Call} (h : Called s₀ t c ms s) (hs : Sound s₀) : Sound s := by
  obtain ⟨s₁, hcall, hrun⟩ := h.run
  exact hrun.sound (hs.next hcall)

theorem Called.reachable {c : Call} (h : Called s₀ t c ms s) (hs : s₀.Reachable) : s.Reachable := by
  obtain ⟨s₁, hcall, hrun⟩ := h.run
  exact hrun.reachable (hs.next hcall)

/-- What holds when a call was made, and is kept by what happens until its answer. -/
theorem Called.induct {c : Call} {Q : List (Moment σ) → System σ → Prop}
    (start : ∀ s₁, s₀.next? (.call t c) = some s₁ → Q [] s₁)
    (next : ∀ ms s a s', Called s₀ t c ms s → s₀.depth t < s.depth t → s.next? a = some s' →
      Q ms s → Q (⟨s, a⟩ :: ms) s') (h : Called s₀ t c ms s) : Q ms s := by
  obtain ⟨⟨s₁, hcall, hrun⟩, hgoing⟩ := h
  induction hrun with
  | refl => exact start s₁ hcall
  | next hrun ha ih =>
    have hlt := hgoing _ List.mem_cons_self
    have hrest := fun m hm => hgoing m (List.mem_cons_of_mem _ hm)
    exact next _ _ _ _ ⟨⟨s₁, hcall, hrun⟩, hrest⟩ hlt ha (ih hrest)

theorem acquires_call (h : s₀.next? (.call t (.acquire p X)) = some s) :
    ∃ below, below.length = s₀.depth t ∧ Acquires s t p X below (Call.acquire p X).frames [] := by
  obtain ⟨below, hbelow, h⟩ := Option.bind_eq_some_iff.1 h
  split at h
  · next hc =>
    cases h
    have hlt := (List.getElem?_eq_some_iff.1 hbelow).1
    refine ⟨below, by simp [depth, hbelow], ⟨by simp [hlt], by simp⟩, ?_, .inl (.call p X)⟩
    exact (Bool.and_eq_true_iff.1 hc).1
  · cases h

/-- An act is the next of the acquisition's own, or it leaves what it has to do alone. -/
theorem Acquires.next (h : Acquires s t p X below own nested) (hs : Sound s)
    (hlt : below.length < s.depth t) (ha : s.next? a = some s') :
    Acquiring p X own ∧
    ((∃ turn, Moves s a s' t p X below own turn ∧ Acquires s' t p X below turn.frames []) ∨
      ((⟨s, a⟩ : Moment σ).isOwn t below.length = false ∧
        ∃ nested', Acquires s' t p X below own nested')) := by
  have hown : Acquiring p X own := by
    rcases h.shape with hown | ⟨rfl, rfl⟩
    · exact hown
    · rw [h.depth_eq] at hlt
      simp at hlt
  refine ⟨hown, ?_⟩
  -- What is below waits, so the frames of the call act as if they were alone.
  rcases h.toStacked.next h.waits hown.ne_nil hown.not_isWaiting ha with
    ⟨hisOwn, rfl, turn, hturn, hnext, hframes, hmturn, hstack⟩ | ⟨hother, nested', hstack⟩
  · left
    have hthread : s.threads[t]? = some (own ++ below) := h.stack
    obtain ⟨O, hO, -⟩ := exists_others hthread
    have hv : Scene.Valid ⟨s.world, own + (below + O), s.held, s.history⟩ := by
      rw [← add_assoc, Multiset.coe_add, ← hO]
      exact hs.valid
    have hmove := hown.move hv hturn
    have ht := ((h.isOwn_iff hown.ne_nil hown.not_isWaiting).1 hisOwn).1
    refine ⟨turn, ⟨ha, hmove, hisOwn, ht, hnext, hframes, hmturn⟩, hstack, h.waits, ?_⟩
    exact hmove.acquiring.imp_right fun hover => ⟨hover.1, rfl⟩
  · exact .inr ⟨hother, nested', hstack, h.waits, .inl hown⟩

/-- What an acquisition's own acts keep, and what the acts of others keep, holds until it is
answered. -/
theorem Called.keeps {P : List Frame → List (Moment σ) → System σ → Prop} (hs : Sound s₀)
    (h : Called s₀ t (.acquire p X) ms s)
    (start : ∀ s₁, P (Call.acquire p X).frames [] s₁)
    (other : ∀ own ms s a s', Called s₀ t (.acquire p X) ms s → Acquiring p X own →
      s.next? a = some s' → (⟨s, a⟩ : Moment σ).isOwn t (s₀.depth t) = false →
      P own ms s → P own (⟨s, a⟩ :: ms) s')
    (move : ∀ below own turn ms s a s', Called s₀ t (.acquire p X) ms s →
      below.length = s₀.depth t → Moves s a s' t p X below own turn →
      P own ms s → P turn.frames (⟨s, a⟩ :: ms) s') :
    ∃ below own nested, below.length = s₀.depth t ∧ Acquires s t p X below own nested ∧
      P own ms s := by
  refine h.induct (Q := fun ms s => ∃ below own nested, below.length = s₀.depth t ∧
    Acquires s t p X below own nested ∧ P own ms s) (fun s₁ hcall => ?_) ?_
  · obtain ⟨below, hd, hacq⟩ := acquires_call hcall
    exact ⟨below, _, [], hd, hacq, start s₁⟩
  · rintro ms s a s' h hlt ha ⟨below, own, nested, hd, hacq, hP⟩
    obtain ⟨hown, hnext⟩ := hacq.next (h.sound hs) (hd ▸ hlt) ha
    rcases hnext with ⟨turn, hmoves, hacq'⟩ | ⟨hother, nested', hacq'⟩
    · exact ⟨below, turn.frames, [], hd, hacq', move _ _ _ _ _ _ _ h hd hmoves hP⟩
    · exact ⟨below, own, nested', hd, hacq', other _ _ _ _ _ h hown ha (hd ▸ hother) hP⟩

theorem Called.acquires (hs : Sound s₀) (h : Called s₀ t (.acquire p X) ms s) :
    ∃ below own nested, below.length = s₀.depth t ∧ Acquires s t p X below own nested := by
  obtain ⟨below, own, nested, hd, hacq, -⟩ := h.keeps (P := fun _ _ _ => True) hs
    (fun _ => trivial) (fun _ _ _ _ _ _ _ _ _ _ => trivial) fun _ _ _ _ _ _ _ _ _ _ _ => trivial
  exact ⟨below, own, nested, hd, hacq⟩

/-- The act by which an acquisition comes to its end is its own. -/
theorem Called.moves_last (hs : Sound s₀) (h : Called s₀ t (.acquire p X) (⟨s, a⟩ :: ms) s')
    (hover : s'.depth t = s₀.depth t) :
    ∃ below own turn, below.length = s₀.depth t ∧ Moves s a s' t p X below own turn ∧
      turn.frames = [] := by
  obtain ⟨h, hlt, ha⟩ := h.tail
  obtain ⟨below, own, nested, hd, hacq⟩ := h.acquires hs
  obtain ⟨hown, ⟨turn, hmoves, hacq'⟩ | ⟨-, nested', hacq'⟩⟩ := hacq.next (h.sound hs) (hd ▸ hlt) ha
  · refine ⟨below, own, turn, hd, hmoves, ?_⟩
    have := hacq'.depth_eq
    rw [hover, ← hd] at this
    exact List.length_eq_zero_iff.1 (by omega)
  · have := hacq'.depth_eq
    have := List.length_pos_iff.2 hown.ne_nil
    omega

/-- An acquisition that is over has come to its end by an act. -/
theorem Called.exists_moves_last (hs : Sound s₀) (h : Called s₀ t (.acquire p X) ms s')
    (hover : s'.depth t = s₀.depth t) :
    ∃ s a earlier below own turn, ms = ⟨s, a⟩ :: earlier ∧ below.length = s₀.depth t ∧
      Moves s a s' t p X below own turn ∧ turn.frames = [] := by
  cases ms with
  | nil =>
    -- A call that was just made has all left to do.
    obtain ⟨s₁, hcall, hrun⟩ := h.run
    cases hrun
    obtain ⟨below, hd, hacq⟩ := acquires_call hcall
    have hdepth := hacq.depth_eq
    simp only [Call.frames, List.length_cons] at hdepth
    omega
  | cons m earlier =>
    obtain ⟨s, a⟩ := m
    obtain ⟨below, own, turn, hd, hmoves, hframes⟩ := h.moves_last hs hover
    exact ⟨s, a, earlier, below, own, turn, rfl, hd, hmoves, hframes⟩

end System

end ReadPool
