import Mathlib
import ReadPool.Proofs.Nesting

/-!
# What drains within drains come to

The account of a lone thread that drains, with all that its closes call: which deaths it has
received and posted, who has counted them, what it has published, and how many acts it has left.
Each turn moves something from one place of the account to another (`Frame.Steps`), and a call opens
new places with nothing in them, so `Reckoning` holds as long as the drain goes on.
-/

namespace ReadPool

theorem countP_modify {α : Type*} {P : α → Bool} {l : List α} {i : ℕ} {a : α} (f : α → α)
    (h : l[i]? = some a) :
    (l.modify i f).countP P + (if P a then 1 else 0) = l.countP P + if P (f a) then 1 else 0 := by
  induction l generalizing i with
  | nil => simp at h
  | cons b l ih =>
    cases i with
    | zero =>
      obtain rfl : b = a := by simpa using h
      simp only [List.modify_zero_cons, List.countP_cons]
      omega
    | succ i =>
      have hi := ih (i := i) (by simpa using h)
      simp only [List.modify_succ_cons, List.countP_cons]
      omega

/-- An element of two lists in a row is in the first or in the second. -/
theorem exists_of_append_eq {α : Type*} {xs ys above rest : List α} {a : α}
    (h : xs ++ ys = above ++ a :: rest) :
    (∃ inner, above = xs ++ inner ∧ ys = inner ++ a :: rest) ∨
      ∃ inner, xs = above ++ a :: inner ∧ rest = inner ++ ys := by
  rcases List.append_eq_append_iff.1 h with h | ⟨inner, hxs, hys⟩
  · exact .inl h
  · cases inner with
    | nil => exact .inl ⟨[], by simpa using hxs.symm, hys.symm⟩
    | cons b inner =>
      obtain ⟨rfl, rfl⟩ := List.cons_eq_cons.1 hys
      exact .inr ⟨inner, hxs, rfl⟩

namespace World

variable {w : World σ} {h : WrapperId} {x : Wrapper} {p q : PoolId}

/-- How many wrappers of a pool are referenced. -/
def livesOf (w : World σ) (q : PoolId) : Nat :=
  w.wrappers.countP fun x => x.home = q && x.isLive

@[simp] theorem livesOf_updateRaw (r f) : (w.updateRaw r f).livesOf q = w.livesOf q := rfl
@[simp] theorem livesOf_updatePool (p f) : (w.updatePool p f).livesOf q = w.livesOf q := rfl
@[simp] theorem livesOf_addRaw (X) (s : σ) : (w.addRaw X s).1.livesOf q = w.livesOf q := rfl

theorem livesOf_updateWrapper (hx : w.wrappers[h]? = some x) (f : Wrapper → Wrapper)
    (hf : (f x).home = x.home) :
    (w.updateWrapper h f).livesOf q + (if x.home = q ∧ x.isLive then 1 else 0)
      = w.livesOf q + if x.home = q ∧ (f x).isLive then 1 else 0 := by
  have hmodify := countP_modify (P := fun x => x.home = q && x.isLive) f hx
  simpa only [livesOf, updateWrapper, hf, Bool.and_eq_true, decide_eq_true_eq] using hmodify

/-- A change that lets no wrapper die. -/
theorem livesOf_updateWrapper_of_eq (hx : w.wrappers[h]? = some x) (f : Wrapper → Wrapper)
    (hf : (f x).home = x.home) (hl : (f x).isLive = x.isLive) :
    (w.updateWrapper h f).livesOf q = w.livesOf q := by
  have hlives := livesOf_updateWrapper (q := q) hx f hf
  rw [hl] at hlives
  exact Nat.add_right_cancel hlives

theorem livesOf_retain (hl : w.isLive h) : (w.retain h).livesOf q = w.livesOf q := by
  have hpos := isLive_iff.1 hl
  obtain ⟨x, hx, hs⟩ := exists_of_strong_pos hpos
  refine livesOf_updateWrapper_of_eq hx _ rfl ?_
  simp only [Wrapper.isLive, decide_eq_decide]
  omega

theorem livesOf_addWrapper (p X e r) :
    (w.addWrapper p X e r).1.livesOf q = w.livesOf q + if p = q then 1 else 0 := by
  simp [livesOf, wrappers_addWrapper, Wrapper.isLive]

theorem livesOf_pos (hx : w.wrappers[h]? = some x) (hs : 0 < x.strong) :
    0 < w.livesOf x.home :=
  List.countP_pos_iff.2 ⟨x, List.mem_of_getElem? hx, by simpa [Wrapper.isLive] using hs⟩

end World

/-! ## One frame -/

namespace Frame

/-- The death that a loop receives from the queue of `q`, if one is there. -/
def receives (q : PoolId) (w : World σ) : Frame → List Note
  | receive p _ => if p = q then (w.pending q).take 1 else []
  | _ => []

/-- The death that is posted to the queue of `q`, if that is still up. -/
def posts (q : PoolId) (w : World σ) : Frame → List Note
  | post home note =>
    if home = q && (w.pools[q]?.bind Pool.queue).isSome then [note] else []
  | _ => []

/-- What a loop on `q` has counted so far. -/
def counts (q : PoolId) : Frame → Nat
  | receive p n => if p = q then n else 0
  | _ => 0

/-- What a loop on `q` has counted when it ends. -/
def settles (q : PoolId) (w : World σ) (f : Frame) : Nat :=
  if w.pending q = [] then f.counts q else 0

/-- A wrapper of `q` is to be published. -/
def publishing (q : PoolId) : Frame → Nat
  | publish p _ _ _ => if p = q then 1 else 0
  | _ => 0

/-- A death is to be posted to `q`. -/
def posting (q : PoolId) : Frame → Nat
  | post home _ => if home = q then 1 else 0
  | _ => 0

/-- A raw handle was opened, and its wrapper is not published yet. -/
def unpublished : Frame → Nat
  | wrap _ _ _ _ => 1
  | publish _ _ _ _ => 1
  | _ => 0

/-- How many acts it takes at the most to be done with a frame, and with what it makes. -/
def price : Frame → Nat
  | lookUp _ _ => 9
  | opening _ _ _ => 8
  | wrap _ _ _ _ => 7
  | publish _ _ _ _ => 1
  | drop _ => 1
  | post _ _ => 5
  | f => f.turns

end Frame

/-- How many acts it takes at the most to be done with the deaths that wait, and with those of the
wrappers that are referenced. -/
def World.price (w : World σ) : Nat := 4 * w.queued.card + 5 * w.streams.card

namespace Frame.Steps

variable {w w' : World σ} {f : Frame} {top : List Frame}

/-- A queue is taken from in front and added to at its end. -/
theorem order (h : f.Steps w w' top) (q : PoolId) :
    f.receives q w ++ w'.pending q = w.pending q ++ f.posts q w := by
  cases h with
  | @drained p n hq =>
    by_cases hpq : p = q
    · subst hpq
      simp [receives, posts, hq]
    · simp [receives, posts, hpq]
  | @received p n note notes hq =>
    by_cases hpq : p = q
    · subst hpq
      simp [receives, posts, hq, World.pending_receive hq]
    · simp [receives, posts, hpq, World.pending_receive hq]
  | @posted home note notes hq =>
    by_cases hpq : home = q
    · subst hpq
      simp [receives, posts, hq, World.pending_post hq]
    · simp [receives, posts, hpq, World.pending_post hq]
  | @releasedInline home note hq =>
    by_cases hpq : home = q
    · subst hpq
      simp [receives, posts, hq]
    · simp [receives, posts, hpq]
  | _ => simp [receives, posts]

/-- A death is posted for a wrapper that has died, and a wrapper is published that was made. -/
theorem lives (h : f.Steps w w' top) (q : PoolId) :
    (f.posts q w).length + w'.livesOf q + (top.map (posting q)).sum
      ≤ w.livesOf q + f.posting q + (top.map (publishing q)).sum := by
  cases h with
  | found hl => simp [posts, posting, World.livesOf_retain hl]
  | wrapped => simp [posts, posting, publishing, World.livesOf_addWrapper]
  | dropped hx hs =>
    rw [World.livesOf_updateWrapper_of_eq hx _ rfl]
    · simp [posts, posting]
    · simp only [Wrapper.isLive, decide_eq_decide]
      omega
  | @died h x raw hx hs hr =>
    have hlives := World.livesOf_updateWrapper (q := q) hx
      (fun x => { x with strong := 0, stream := none }) rfl
    simp only [Wrapper.isLive, hs, Nat.lt_irrefl, zero_lt_one, decide_true, decide_false, and_true,
      Bool.false_eq_true, and_false, if_false, Nat.add_zero] at hlives
    simp only [posts, posting, publishing, List.map_cons, List.map_nil, List.sum_cons, List.sum_nil,
      List.length_nil]
    omega
  | @posted home note notes hq =>
    by_cases hpq : home = q
    · subst hpq
      simp [posts, posting, hq, Nat.add_comm]
    · simp [posts, posting, hpq]
  | @releasedInline home note hq =>
    by_cases hpq : home = q
    · subst hpq
      simp [posts, posting, hq]
      omega
    · simp [posts, posting, hpq]
  | _ => simp [posts, posting]

/-- What is opened is published, or waits to be. -/
theorem raws (h : f.Steps w w' top) :
    w'.raws.length + f.unpublished
      = w.raws.length + (top.map unpublished).sum + if f.isPublish then 1 else 0 := by
  cases h <;> simp [unpublished, isPublish]

/-- A turn is paid for. -/
theorem price (h : f.Steps w w' top) :
    1 + (top.map Frame.price).sum + w'.price ≤ f.price + w.price := by
  cases h with
  | received hq =>
    simp [Frame.price, turns, World.price, World.queued_receive hq]
    omega
  | @evicted p note =>
    have hq := World.queued_updatePool_of_eq (w := w) (p := p)
      (fun pool => { pool with slots := pool.slots.evict note.identity note.entry }) fun _ => rfl
    simp [Frame.price, turns, World.price, hq]
  | @wrapped p X observed raw entry =>
    have hq := World.queued_updatePool_of_eq (w := w) (p := p)
      (fun pool => { pool with next := pool.next + 1 }) fun _ => rfl
    simp [Frame.price, World.price, World.streams_addWrapper, hq]
    omega
  | @published p X observed h slots =>
    have hq := World.queued_updatePool_of_eq (w := w) (p := p)
      (fun pool => { pool with slots }) fun _ => rfl
    simp [Frame.price, World.price, hq]
  | @dropped h x hx hs =>
    have hstreams := World.streams_updateWrapper_of_eq (w := w) (h := h)
      (fun x => { x with strong := x.strong - 1 }) fun _ => rfl
    simp [Frame.price, World.price, hstreams]
  | died hx hs hr =>
    have hstreams := World.streams_giveUp hx hr
      (fun x => { x with strong := 0, stream := none }) rfl
    simp [Frame.price, World.price, hstreams]
    omega
  | posted hq =>
    simp [Frame.price, World.price, World.queued_post hq]
    omega
  | _ => simp [Frame.price, turns, World.price]

/-- What a loop has received, it has counted. -/
theorem account (h : f.Steps w w' top) (q : PoolId) :
    (f.receives q w).length + f.counts q = f.settles q w + (top.map (counts q)).sum := by
  cases h with
  | @drained p n hq =>
    by_cases hpq : p = q
    · subst hpq
      simp [receives, counts, settles, hq]
    · simp [receives, counts, settles, hpq]
  | @received p n note notes hq =>
    by_cases hpq : p = q
    · subst hpq
      simp [receives, counts, settles, hq, Nat.add_comm]
    · simp [receives, counts, settles, hpq]
  | _ => simp [receives, counts, settles]

/-- A slot is about to be taken out for the death that was received just now. -/
theorem of_evict {q : PoolId} {note : Note} {rest : List Frame}
    (h : f.Steps w w' (.evict q note :: rest)) : f.receives q w = [note] := by
  cases h with
  | received hq => simp [receives, hq]

/-- A close is about to begin for the death whose slot was taken out just now, or for one that has
found no queue. -/
theorem of_close {raw : RawId} {X : Identity} {entry : Entry} {cause : CloseCause}
    {rest : List Frame} (h : f.Steps w w' (.close raw X entry cause :: rest)) :
    (∃ q, f = .evict q ⟨X, entry, raw⟩ ∧ (w'.slot? q X).map Slot.entry ≠ some entry) ∨
      ∃ q, f = .post q ⟨X, entry, raw⟩ ∧ ¬ w.isUp q := by
  cases h with
  | @evicted q note =>
    refine .inl ⟨q, rfl, ?_⟩
    rw [World.slot?_evict]
    split
    · simp
    · next hstale =>
      intro hentry
      obtain ⟨slot, hslot, he⟩ := Option.map_eq_some_iff.1 hentry
      exact hstale ⟨rfl, Identity.Same.refl _, by simp [hslot, he]⟩
  | releasedInline hq => exact .inr ⟨_, rfl, by simp [World.isUp, hq]⟩

/-- A loop comes on top only where it has received. -/
theorem of_loop {q : PoolId} {n : Nat} {above rest : List Frame}
    (h : f.Steps w w' (above ++ .receive q n :: rest)) :
    rest = [] ∧ ∃ k, f = .receive q k ∧ n = k + 1 ∧ f.receives q w ≠ [] := by
  generalize htop : above ++ .receive q n :: rest = top at h
  have hmem : .receive q n ∈ top := by simp [← htop]
  cases h with
  | @received p k note notes hq =>
    obtain ⟨rfl, rfl⟩ : q = p ∧ n = k + 1 := by simpa using hmem
    have hrest : rest = [] := by
      have := congrArg List.length htop
      cases above with
      | nil => cases htop
      | cons f above =>
        simp only [List.length_append, List.length_cons, List.length_nil] at this
        exact List.length_eq_zero_iff.1 (by omega)
    exact ⟨hrest, k, rfl, rfl, by simp [receives, hq]⟩
  | _ => simp at hmem

end Frame.Steps

theorem Frame.length_receives (f : Frame) (q : PoolId) (w : World σ) :
    (f.receives q w).length = if f.receives q w ≠ [] then 1 else 0 := by
  cases f with
  | receive p n =>
    simp only [receives]
    split
    · cases w.pending q <;> simp
    · rfl
  | _ => rfl

theorem Frame.publishing_eq (f : Frame) (q : PoolId) :
    f.publishing q = if f.isPublish && f.pool? = some q then 1 else 0 := by
  cases f <;> simp [publishing, isPublish, pool?]

/-! ## A drain whose closes call nothing -/

namespace Purging

variable {p : PoolId} {w w' : World σ} {f : Frame} {rest top : List Frame}

theorem steps (hp : Purging p (f :: rest)) (h : f.Steps w w' top) : Purging p (top ++ rest) := by
  cases hp with
  | receive n =>
    rcases h.of_receive with ⟨rfl, -⟩ | ⟨note, rfl⟩
    · exact .done
    · exact .evict note (n + 1)
  | evict note n =>
    cases h
    exact .close _ _ _ n
  | close raw X entry n =>
    cases h
    exact .closing _ _ _ n
  | closing raw X entry n =>
    cases h
    exact .receive n

theorem posts_eq_nil (hp : Purging p (f :: rest)) (q : PoolId) (w : World σ) :
    f.posts q w = [] := by
  cases hp <;> rfl

/-- It is the loop itself that receives. -/
theorem rest_eq_nil_or (hp : Purging p (f :: rest)) (q : PoolId) (w : World σ) :
    rest = [] ∨ f.receives q w = [] := by
  cases hp with
  | receive n => exact .inl rfl
  | _ => exact .inr rfl

end Purging

/-! ## One call -/

/-- A call begins with nothing done. -/
theorem Call.sum_frames {c : Call} (hc : c.nests) (q : PoolId) :
    (c.frames.map (Frame.posting q)).sum = 0 ∧ (c.frames.map (Frame.publishing q)).sum = 0 ∧
      (c.frames.map Frame.unpublished).sum = 0 ∧ (c.frames.map (Frame.counts q)).sum = 0 ∧
      (c.frames.map Frame.price).sum ≤ 10 := by
  cases c with
  | acquire | purge | drop =>
    simp [frames, Frame.posting, Frame.publishing, Frame.unpublished, Frame.counts, Frame.price,
      Frame.turns]
  | _ => cases hc

/-! ## One moment -/

namespace Moment

variable (q : PoolId) (d : Nat) (m : Moment σ)

/-- What is received from the queue of `q`. -/
def receives : List Note := m.frames.head?.elim [] (Frame.receives q m.system.world)

/-- What is posted to the queue of `q`. -/
def posts : List Note := m.frames.head?.elim [] (Frame.posts q m.system.world)

/-- What a loop on `q` that ends has counted. -/
def settles : Nat := m.frames.head?.elim 0 (Frame.settles q m.system.world)

/-- A wrapper is published. -/
def isPublishing : Bool := m.log.any LogEvent.isPublished

/-- A wrapper of `q` is published. -/
def publishes : Bool := m.isPublishing && m.frames.head?.any fun f => f.pool? = some q

/-- The loop on `q` that stands on `d` frames receives. -/
def receivesAt : Bool := m.receives q ≠ [] && m.system.depth 0 = d + 1

end Moment

namespace System

/-- What was received from the queue of `q`, first things first. -/
def received (q : PoolId) (ms : List (Moment σ)) : List Note :=
  ms.reverse.flatMap (Moment.receives q)

/-- What was posted to the queue of `q`, first things first. -/
def posted (q : PoolId) (ms : List (Moment σ)) : List Note :=
  ms.reverse.flatMap (Moment.posts q)

/-- The moments since the call of the loop that stands on `d` frames. -/
def sinceLoop (d : Nat) (ms : List (Moment σ)) : List (Moment σ) :=
  ms.takeWhile fun m => d < m.system.depth 0

variable {s₀ s s' : System σ} {ms : List (Moment σ)} {m : Moment σ} {a : Act σ} {c : Call}
  {p q : PoolId} {below own rest top : List Frame} {f : Frame} {d : Nat}

@[simp] theorem received_cons : received q (m :: ms) = received q ms ++ m.receives q := by
  simp [received]

@[simp] theorem posted_cons : posted q (m :: ms) = posted q ms ++ m.posts q := by simp [posted]

theorem sinceLoop_cons (h : d < m.system.depth 0) :
    sinceLoop d (m :: ms) = m :: sinceLoop d ms := by
  simp [sinceLoop, h]

theorem sinceLoop_cons_of_le (h : m.system.depth 0 ≤ d) : sinceLoop d (m :: ms) = [] := by
  simp [sinceLoop, Nat.not_lt.2 h]

namespace Goes

variable (h : Goes s a s' below f rest top)
include h

theorem receives (q : PoolId) : (⟨s, a⟩ : Moment σ).receives q = f.receives q s.world := by
  rw [Moment.receives, h.frames]
  rfl

theorem posts (q : PoolId) : (⟨s, a⟩ : Moment σ).posts q = f.posts q s.world := by
  rw [Moment.posts, h.frames]
  rfl

theorem settles (q : PoolId) : (⟨s, a⟩ : Moment σ).settles q = f.settles q s.world := by
  rw [Moment.settles, h.frames]
  rfl

theorem isPublishing : (⟨s, a⟩ : Moment σ).isPublishing = f.isPublish := h.isPublished

theorem publishes (q : PoolId) :
    (⟨s, a⟩ : Moment σ).publishes q = (f.isPublish && f.pool? = some q) := by
  rw [Moment.publishes, h.isPublishing, h.frames]
  rfl

end Goes

/-! ## The whole account -/

/-- What has come, since `s₀`, of a drain that has `own` left to do above `d` frames. -/
structure Reckoning (s₀ : System σ) (d : Nat) (ms : List (Moment σ)) (s : System σ)
    (own : List Frame) : Prop where
  order : ∀ q, received q ms ++ s.world.pending q = s₀.world.pending q ++ posted q ms
  lives : ∀ q, (posted q ms).length + s.world.livesOf q + (own.map (Frame.posting q)).sum
    ≤ s₀.world.livesOf q + ms.countP (Moment.publishes q) + (own.map (Frame.publishing q)).sum
  raws : s.world.raws.length
    = s₀.world.raws.length + ms.countP Moment.isPublishing + (own.map Frame.unpublished).sum
  price : ms.countP (fun m => m.act.thread?.isSome) + (own.map Frame.price).sum + s.world.price
    ≤ 1 + s₀.world.price + 10 * ms.countP fun m => m.act.isCall
  account : ∀ q, (received q ms).length
    = (ms.map (Moment.settles q)).sum + (own.map (Frame.counts q)).sum
  loops : ∀ above q n rest, own = above ++ .receive q n :: rest →
    n = (sinceLoop (rest.length + d) ms).countP (Moment.receivesAt q (rest.length + d))
  evicting : ∀ q note, own.head? = some (.evict q note) →
    ∃ m earlier, ms = m :: earlier ∧ m.receives q = [note]
  closing : ∀ raw X entry cause, own.head? = some (.close raw X entry cause) →
    (∃ q m m' earlier, ms = m :: m' :: earlier ∧ m'.receives q = [⟨X, entry, raw⟩] ∧
      m.frames.head? = some (.evict q ⟨X, entry, raw⟩) ∧
      (s.world.slot? q X).map Slot.entry ≠ some entry) ∨
    ∃ q m earlier, ms = m :: earlier ∧ m.frames.head? = some (.post q ⟨X, entry, raw⟩) ∧
      ¬ m.system.world.isUp q

namespace Reckoning

theorem start (hworld : s.world = s₀.world) : Reckoning s₀ d [] s [.receive p 0] := by
  constructor
  · simp [hworld, received, posted]
  · simp [hworld, posted, Frame.posting]
  · simp [hworld, Frame.unpublished]
  · simp [hworld, Frame.price, Frame.turns]
  · simp [received, Frame.counts]
  · intro above q n rest hown
    cases above with
    | nil => cases hown; rfl
    | cons f above => simp at hown
  · simp
  · simp

/-- A call that a close makes has done nothing yet. -/
theorem call (h : Reckoning s₀ below.length ms s own) (hn : Nesting s p below own)
    (hc : c.nests) (hworld : s'.world = s.world) :
    Reckoning s₀ below.length (⟨s, .call 0 c⟩ :: ms) s' (c.frames ++ own) := by
  have hframes : (⟨s, .call 0 c⟩ : Moment σ).frames = [] := rfl
  have hlog : (⟨s, .call 0 c⟩ : Moment σ).log = [] := rfl
  constructor
  · intro q
    simpa [hworld, Moment.receives, Moment.posts, hframes] using h.order q
  · intro q
    obtain ⟨hposting, hpublishing, -⟩ := Call.sum_frames hc q
    have := h.lives q
    simpa [hworld, Moment.posts, hframes, Moment.publishes, hposting, hpublishing] using this
  · obtain ⟨-, -, hunpublished, -⟩ := Call.sum_frames hc p
    simpa [hworld, Moment.isPublishing, hlog, hunpublished] using h.raws
  · obtain ⟨-, -, -, -, hprice⟩ := Call.sum_frames hc p
    have hold := h.price
    rw [List.countP_cons_of_neg (by simp [Act.thread?]), List.countP_cons_of_pos rfl,
      List.map_append, List.sum_append, hworld]
    omega
  · intro q
    obtain ⟨-, -, -, hcounts, -⟩ := Call.sum_frames hc q
    simpa [Moment.receives, Moment.settles, hframes, hcounts] using h.account q
  · intro above q n rest hown
    rcases exists_of_append_eq hown with ⟨inner, rfl, rfl⟩ | ⟨inner, hcall, rfl⟩
    · -- A loop that was there has received nothing by the call.
      rw [sinceLoop_cons (by simp [hn.depth_eq]; omega), List.countP_cons_of_neg]
      · exact h.loops inner q n rest rfl
      · simp [Moment.receivesAt, Moment.receives, hframes]
    · -- The loop of the call is new.
      have hzero : n = 0 := by
        have hmem : .receive q n ∈ c.frames := by simp [hcall]
        cases c with
        | acquire => exact (by simpa [Call.frames] using hmem : _ ∧ n = 0).2
        | purge => exact (by simpa [Call.frames] using hmem : _ ∧ n = 0).2
        | drop => simp [Call.frames] at hmem
        | _ => cases hc
      rw [sinceLoop_cons_of_le (by simp [hn.depth_eq]), hzero]
      rfl
  · cases c with
    | acquire | purge | drop => simp [Call.frames]
    | _ => cases hc
  · cases c with
    | acquire | purge | drop => simp [Call.frames]
    | _ => cases hc

/-- The frame on top has its turn. -/
theorem go (h : Reckoning s₀ below.length ms s (f :: rest)) (hn : Nesting s p below (f :: rest))
    (hg : Goes s a s' below f rest top) :
    Reckoning s₀ below.length (⟨s, a⟩ :: ms) s' (top ++ rest) := by
  constructor
  · intro q
    have hstep := hg.steps.order q
    rw [received_cons, posted_cons, hg.receives, hg.posts, List.append_assoc, hstep,
      ← List.append_assoc, h.order, List.append_assoc]
  · intro q
    have hold := h.lives q
    have hstep := hg.steps.lives q
    have hpublishing := f.publishing_eq q
    simp only [posted_cons, hg.posts, List.length_append, List.map_append, List.sum_append,
      List.countP_cons, hg.publishes, List.map_cons, List.sum_cons] at hold ⊢
    omega
  · have hold := h.raws
    have hstep := hg.steps.raws
    simp only [List.countP_cons, hg.isPublishing, List.map_append, List.sum_append, List.map_cons,
      List.sum_cons] at hold ⊢
    omega
  · have hold := h.price
    have hstep := hg.steps.price
    have hcall : a.isCall = false := by
      have := hg.thread
      cases a with
      | call => cases this
      | _ => rfl
    simp only [List.countP_cons, hg.thread, hcall, Option.isSome_some, if_true, List.map_append,
      List.sum_append, List.map_cons, List.sum_cons, Bool.false_eq_true, if_false] at hold ⊢
    omega
  · intro q
    have hold := h.account q
    have hstep := hg.steps.account q
    simp only [received_cons, hg.receives, hg.settles, List.length_append, List.map_append,
      List.sum_append, List.map_cons, List.sum_cons] at hold ⊢
    omega
  · intro above q n rest' hown
    have hdepth : s.depth 0 = rest.length + 1 + below.length := hn.depth_eq
    rcases exists_of_append_eq hown with ⟨inner, rfl, rfl⟩ | ⟨inner, rfl, rfl⟩
    · -- What goes on stands above the loop.
      rw [sinceLoop_cons (by simp [hdepth]; omega), List.countP_cons_of_neg]
      · exact h.loops (f :: inner) q n rest' rfl
      · simp [Moment.receivesAt, hdepth]
        omega
    · obtain ⟨rfl, k, rfl, rfl, hreceives⟩ := hg.steps.of_loop
      rw [List.nil_append, sinceLoop_cons (by simp [hdepth]), List.countP_cons_of_pos,
        ← h.loops [] q k rest rfl]
      simp [Moment.receivesAt, hg.receives, hreceives, hdepth]
      omega
  · intro q note hhead
    cases top with
    | nil => cases hn.lower _ (List.mem_of_mem_head? hhead)
    | cons g top =>
      obtain rfl : g = .evict q note := Option.some.inj hhead
      exact ⟨_, ms, rfl, by rw [hg.receives, hg.steps.of_evict]⟩
  · intro raw X entry cause hhead
    cases top with
    | nil => cases hn.lower _ (List.mem_of_mem_head? hhead)
    | cons g top =>
      obtain rfl : g = .close raw X entry cause := Option.some.inj hhead
      rcases hg.steps.of_close with ⟨q, rfl, hslot⟩ | ⟨q, rfl, hdown⟩
      · obtain ⟨m, earlier, rfl, hreceives⟩ := h.evicting q _ rfl
        exact .inl ⟨q, _, m, earlier, rfl, hreceives, by rw [hg.frames]; rfl, hslot⟩
      · exact .inr ⟨q, _, ms, rfl, by rw [hg.frames]; rfl, hdown⟩

end Reckoning

/-- The account holds as long as the drain goes on. -/
theorem Called.reckoning (hs : Sound s₀) (hbelow : s₀.threads = [below])
    (h : Called s₀ 0 (.purge p) ms s) (hms : ∀ m ∈ ms, m.nests) :
    ∃ own, Nesting s p below own ∧ Reckoning s₀ below.length ms s own :=
  h.nesting hs hbelow hms (Q := Reckoning s₀ below.length) (fun _ hworld => .start hworld)
    (fun _ _ _ _ _ hn hc hworld ht => ht.call hn hc hworld)
    fun _ _ _ _ _ _ _ hn hg ht => ht.go hn hg

end System

end ReadPool
