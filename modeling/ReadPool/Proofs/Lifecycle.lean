import Mathlib
import ReadPool.Proofs.Reading

/-!
# The life of a wrapper

One wrapper and its references, which are cloned, dropped, gained from weak ones, read, and given up
for the raw handle, by any number of holders and in any order. To let a reference go and to post a
death are turns of their own, and in between the rest of the world does what it likes.

A wrapper is in use, and then it is over (`InUse`, `Over`). It is in use as long as there is a
reference, be it one that is just about to go; that long it has its stream, which stands where the
reads have brought it. It is over with its last reference, and then the raw handle has gone one of
two ways, once (`life_cycle`).
-/

namespace ReadPool

/-- What the finalizer of a wrapper posts: its death, unless the raw handle has been taken out. -/
def Wrapper.death? (x : Wrapper) : Option (PoolId × Note) :=
  x.stream.map fun raw => (x.home, ⟨x.identity, x.entry, raw⟩)

/-- What can be told of a wrapper. -/
inductive Incident where
  /-- A weak reference has given a strong one. -/
  | upgraded
  /-- A weak reference has not. -/
  | faded
  | read (n : Nat) (result : Except IoError (List UInt8))
  /-- The raw handle was given back for a reference. -/
  | taken (raw : RawId)
  /-- It was not, since there were other references. -/
  | refused
  | posted (home : PoolId) (note : Note)

namespace Incident

def length? : Incident → Option Nat
  | read n _ => some n
  | _ => none

def result? : Incident → Option (Except IoError (List UInt8))
  | read _ result => some result
  | _ => none

def taken? : Incident → Option RawId
  | taken raw => some raw
  | _ => none

def posted? : Incident → Option (PoolId × Note)
  | posted home note => some (home, note)
  | _ => none

/-- The incident is of references alone. -/
def isQuiet : Incident → Bool
  | upgraded => true
  | faded => true
  | refused => true
  | _ => false

end Incident

/-- What has happened, first things first. -/
abbrev History := List Incident

namespace History

/-- The buffers that were read into, by their lengths. -/
def lengths (history : History) : List Nat := history.filterMap Incident.length?

def results (history : History) : List (Except IoError (List UInt8)) :=
  history.filterMap Incident.result?

/-- The raw handles that were given back. -/
def taken (history : History) : List RawId := history.filterMap Incident.taken?

/-- The deaths that were posted. -/
def posted (history : History) : List (PoolId × Note) := history.filterMap Incident.posted?

end History

namespace Frame

/-- The death that is about to be posted. -/
def posting? : Frame → Option (PoolId × Note)
  | post home note => some (home, note)
  | _ => none

/-- The frame is of a finalizer, which posts a death or closes what it carries. -/
def isFinal : Frame → Bool
  | post _ _ => true
  | close _ _ _ _ => true
  | closing _ _ _ _ => true
  | _ => false

end Frame

/-- A wrapper in its world. -/
structure Tenure (σ : Type u) where
  world : World σ
  wrapper : WrapperId
  /-- How many references are held. -/
  held : Nat
  /-- What has been begun and is not over: references that go, deaths that are posted. -/
  going : List Frame := []
  history : History := []

namespace Tenure

/-- A wrapper that has just been made, around a raw handle. -/
def start (w : World σ) (p : PoolId) (X : Identity) (entry : Entry) (raw : RawId) : Tenure σ where
  world := (w.addWrapper p X entry raw).1
  wrapper := w.wrappers.length
  held := 1

/-- The references there are. One that is being let go is there until its turn. -/
def references (s : Tenure σ) : Nat := s.held + s.going.count (.drop s.wrapper)

/-- The deaths that are about to be posted. -/
def posting (s : Tenure σ) : List (PoolId × Note) := s.going.filterMap Frame.posting?

/-- Whatever the finalizer of the wrapper has to post. -/
def finalizing (w : World σ) (h : WrapperId) : List Frame :=
  ((w.wrappers[h]?.bind Wrapper.death?).map fun (home, note) => Frame.post home note).toList

/-- What can happen next. Only what is held can be used, but a weak reference can be tried at any
time. -/
inductive Step (rd : Reader σ) : Tenure σ → Tenure σ → Prop where
  | clone {s} (hheld : 0 < s.held) :
      Step rd s { s with world := s.world.retain s.wrapper, held := s.held + 1 }
  | drop {s} (hheld : 0 < s.held) :
      Step rd s { s with held := s.held - 1, going := .drop s.wrapper :: s.going }
  | upgrade {s world} (h : s.world.upgrade? s.wrapper = some world) :
      Step rd s { s with world, held := s.held + 1, history := s.history ++ [.upgraded] }
  | fade {s} (h : s.world.upgrade? s.wrapper = none) :
      Step rd s { s with history := s.history ++ [.faded] }
  | read {s n result world} (hheld : 0 < s.held)
      (h : s.world.read rd s.wrapper n = some (result, world)) :
      Step rd s { s with world, history := s.history ++ [.read n result] }
  /-- The only reference is given up for the raw handle. What is left of the wrapper is finalized
  like any other. -/
  | take {s world raw} (hheld : 0 < s.held)
      (h : s.world.intoRaw? s.wrapper = some (world, raw)) :
      Step rd s { s with
        world, held := s.held - 1, going := finalizing world s.wrapper ++ s.going
        history := s.history ++ [.taken raw] }
  /-- There are other references, and this one is dropped like any other. -/
  | refuse {s} (hheld : 0 < s.held) (h : s.world.intoRaw? s.wrapper = none) :
      Step rd s { s with
        held := s.held - 1, going := .drop s.wrapper :: s.going
        history := s.history ++ [.refused] }
  /-- Something that has been begun has its turn. -/
  | turn {s before f after turn} (hgoing : s.going = before ++ f :: after)
      (h : s.world.step [f] = some turn) :
      Step rd s { s with
        world := turn.world, going := before ++ turn.frames ++ after
        history := s.history ++ (f.posting?.map fun (home, note) => .posted home note).toList }
  /-- A death was released by whoever posted it, and the close ends. -/
  | closed {s before f after turn error} (hgoing : s.going = before ++ f :: after)
      (h : s.world.closed [f] error = some turn) :
      Step rd s { s with world := turn.world, going := before ++ turn.frames ++ after }
  /-- Something happens to the world that leaves the wrapper and its stream alone. -/
  | elsewhere {s world} (hx : world.wrappers[s.wrapper]? = s.world.wrappers[s.wrapper]?)
      (hstream : world.stream? s.wrapper = s.world.stream? s.wrapper) :
      Step rd s { s with world }

/-- Some steps lead there. -/
def Reaches (rd : Reader σ) : Tenure σ → Tenure σ → Prop := Relation.ReflTransGen (Step rd)

/-- A wrapper that has references; `x` is the wrapper as it was made, and `r` its raw handle. -/
structure InUse (rd : Reader σ) (x : Wrapper) (raw : RawId) (r : RawHandle σ) (s : Tenure σ) :
    Prop where
  referenced : 0 < s.references
  wrapper : s.world.wrappers[s.wrapper]?
    = some { x with strong := s.references, stream := some raw }
  raw : s.world.raws[raw]? = some { r with state := rd.after r.state s.history.lengths }
  results : s.history.results = rd.replay r.state s.history.lengths
  going : ∀ f ∈ s.going, f = .drop s.wrapper
  upgradable : .faded ∉ s.history
  taken : s.history.taken = []
  posted : s.history.posted = []

/-- A wrapper that has no references any more. -/
structure Over (rd : Reader σ) (x : Wrapper) (raw : RawId) (r : RawHandle σ) (s : Tenure σ) :
    Prop where
  unreferenced : s.references = 0
  wrapper : s.world.wrappers[s.wrapper]? = some { x with strong := 0, stream := none }
  results : s.history.results = rd.replay r.state s.history.lengths
  going : ∀ f ∈ s.going, f.isFinal
  ended : (s.history.taken = [raw] ∧ s.history.posted = [] ∧ s.posting = []) ∨
    (s.history.taken = [] ∧ s.history.posted ++ s.posting = [(x.home, ⟨x.identity, x.entry, raw⟩)])

end Tenure

/-! ## What is told -/

namespace History

variable (history : History)

theorem isQuiet_nil : ∀ i ∈ ([] : History), i.isQuiet := fun _ hi => nomatch hi

theorem append_quiet {quiet : History} (h : ∀ i ∈ quiet, i.isQuiet) :
    (history ++ quiet : History).lengths = history.lengths ∧
    (history ++ quiet : History).results = history.results ∧
    (history ++ quiet : History).taken = history.taken ∧
    (history ++ quiet : History).posted = history.posted := by
  -- No part of the account is of references alone.
  have told {α : Type} {f : Incident → Option α} (hf : ∀ i : Incident, i.isQuiet → f i = none) :
      (history ++ quiet).filterMap f = history.filterMap f := by
    rw [List.filterMap_append, List.filterMap_eq_nil_iff.2 fun i hi => hf i (h i hi),
      List.append_nil]
  refine ⟨told ?_, told ?_, told ?_, told ?_⟩
  all_goals
    intro i hi
    cases i <;> first | rfl | cases hi

theorem append_death (death : Option (PoolId × Note)) :
    let incidents : History := (death.map fun (home, note) => Incident.posted home note).toList
    (history ++ incidents : History).lengths = history.lengths ∧
    (history ++ incidents : History).results = history.results ∧
    (history ++ incidents : History).taken = history.taken ∧
    (history ++ incidents : History).posted = history.posted ++ death.toList := by
  cases death with
  | none => simp
  | some death =>
    simp only [lengths, results, taken, posted, List.filterMap_append]
    exact ⟨List.append_nil _, List.append_nil _, List.append_nil _, rfl⟩

/-- One more incident, and what it tells. -/
theorem told_concat (f : Incident → Option α) (i : Incident) :
    (history ++ [i]).filterMap f = history.filterMap f ++ (f i).toList := by
  rw [List.filterMap_append]
  cases hi : f i <;> simp [hi]

theorem lengths_concat (i : Incident) :
    (history ++ [i] : History).lengths = history.lengths ++ i.length?.toList :=
  history.told_concat Incident.length? i

theorem results_concat (i : Incident) :
    (history ++ [i] : History).results = history.results ++ i.result?.toList :=
  history.told_concat Incident.result? i

theorem taken_concat (i : Incident) :
    (history ++ [i] : History).taken = history.taken ++ i.taken?.toList :=
  history.told_concat Incident.taken? i

theorem posted_concat (i : Incident) :
    (history ++ [i] : History).posted = history.posted ++ i.posted?.toList :=
  history.told_concat Incident.posted? i

end History

/-! ## What an operation comes to -/

namespace World

variable {w world : World σ} {h : WrapperId} {x : Wrapper} {raw : RawId}

theorem stream?_eq (hx : w.wrappers[h]? = some x) (hraw : x.stream = some raw) :
    w.stream? h = w.raws[raw]? := by
  rw [stream?, hx, Option.bind_some, hraw, Option.bind_some]

theorem upgrade?_eq_some_iff :
    w.upgrade? h = some world ↔ 0 < w.strong h ∧ world = w.retain h := by
  rw [upgrade?, ← isLive_iff]
  by_cases hlive : w.isLive h
  · simp [hlive, eq_comm]
  · simp [hlive]

theorem upgrade?_eq_none_iff : w.upgrade? h = none ↔ w.strong h = 0 := by
  rw [upgrade?, ← Nat.le_zero, ← Nat.not_lt, ← isLive_iff]
  by_cases hlive : w.isLive h <;> simp [hlive]

theorem isSome_upgrade?_iff : (w.upgrade? h).isSome ↔ 0 < w.strong h := by
  rw [Option.isSome_iff_ne_none, Ne, upgrade?_eq_none_iff, Nat.pos_iff_ne_zero]

/-- A death that is posted is the last in its queue; if the queue is gone, what the death carries is
closed. -/
theorem step_post (w : World σ) (p : PoolId) (note : Note) :
    ∃ turn, w.step [.post p note] = some turn ∧
      (w.isUp p → turn.frames = [] ∧ turn.world.pending p = w.pending p ++ [note]) ∧
      (¬ w.isUp p → turn.frames = [.close note.raw note.identity note.entry .death]) := by
  cases hq : w.pools[p]?.bind Pool.queue with
  | none => exact ⟨_, (Yields.releasedInline hq).step rfl, by simp [isUp, hq], fun _ => rfl⟩
  | some notes =>
    refine ⟨_, (Yields.posted hq).step rfl, fun _ => ⟨rfl, ?_⟩, by simp [isUp, hq]⟩
    exact (pending_post hq).trans (if_pos rfl)

/-- The last reference takes the raw handle along. -/
theorem step_drop_last (hx : w.wrappers[h]? = some x) (hone : x.strong = 1)
    (hraw : x.stream = some raw) : w.step [.drop h] = some
      { world := w.updateWrapper h fun x => { x with strong := 0, stream := none }
        frames := [.post x.home ⟨x.identity, x.entry, raw⟩] } :=
  (Yields.died hx hone hraw).step rfl

theorem step_drop_more (hx : w.wrappers[h]? = some x) (hmore : x.strong ≠ 1) :
    w.step [.drop h] = some
      ((w.updateWrapper h fun x => { x with strong := x.strong - 1 }).finish [] .done) :=
  (Yields.dropped (release_shared hx hmore)).step rfl

end World

/-- A finalizer leaves wrappers alone, and posts one death at the most. -/
theorem Frame.final_turn {w : World σ} {f : Frame} {turn : Turn σ} (hf : f.isFinal)
    (h : w.step [f] = some turn) : turn.world.wrappers = w.wrappers ∧
      (∀ g ∈ turn.frames, g.isFinal) ∧ turn.frames.filterMap posting? = [] := by
  cases World.yields_step h with
  | posted | releasedInline | closing => simp [isFinal, posting?]
  | closed => cases h
  | _ => cases hf

namespace Tenure

variable {rd : Reader σ} {x : Wrapper} {raw : RawId} {r : RawHandle σ} {s s' : Tenure σ}

/-! ## What has happened has happened -/

theorem Step.history_prefix (h : Step rd s s') : s.history <+: s'.history := by
  cases h <;> first | exact List.prefix_append _ _ | exact List.prefix_rfl

theorem Reaches.history_prefix (h : Reaches rd s s') : s.history <+: s'.history := by
  induction h with
  | refl => exact List.prefix_rfl
  | tail _ hstep ih => exact ih.trans hstep.history_prefix

/-! ## A wrapper in use -/

namespace InUse

theorem strong_eq (hs : InUse rd x raw r s) : s.world.strong s.wrapper = s.references :=
  World.strong_eq hs.wrapper

/-- The references are counted anew, and nothing else happens to the wrapper. -/
theorem recount (hs : InUse rd x raw r s) {quiet : History} (h : s'.wrapper = s.wrapper)
    (hpos : 0 < s'.references)
    (hx : s'.world.wrappers[s.wrapper]?
      = some { x with strong := s'.references, stream := some raw })
    (hraws : s'.world.raws = s.world.raws) (hgoing : ∀ f ∈ s'.going, f = .drop s.wrapper)
    (hhistory : s'.history = s.history ++ quiet) (hquiet : ∀ i ∈ quiet, i.isQuiet)
    (hup : .faded ∉ quiet) : InUse rd x raw r s' := by
  obtain ⟨hlengths, hresults, htaken, hposted⟩ := History.append_quiet s.history hquiet
  rw [← hhistory] at hlengths hresults htaken hposted
  constructor
  case referenced => exact hpos
  case wrapper => rw [h, hx]
  case raw => rw [hraws, hlengths, hs.raw]
  case results => rw [hresults, hlengths, hs.results]
  case going => rwa [h]
  case upgradable =>
    rw [hhistory, List.mem_append, not_or]
    exact ⟨hs.upgradable, hup⟩
  case taken => rw [htaken, hs.taken]
  case posted => rw [hposted, hs.posted]

/-- A reference is gained. -/
theorem retain (hs : InUse rd x raw r s) {quiet : History} (hquiet : ∀ i ∈ quiet, i.isQuiet)
    (hup : .faded ∉ quiet) : InUse rd x raw r { s with
      world := s.world.retain s.wrapper, held := s.held + 1, history := s.history ++ quiet } := by
  have hcount : s.held + 1 + s.going.count (.drop s.wrapper) = s.references + 1 := by
    rw [references]
    omega
  refine hs.recount rfl ?_ ?_ rfl hs.going rfl hquiet hup
  · rw [references, hcount]
    exact Nat.succ_pos _
  · rw [references, hcount, World.retain, World.getElem?_updateWrapper hs.wrapper, if_pos rfl]

/-- A reference that was held is now about to go, and counts as before. -/
theorem letGo (hs : InUse rd x raw r s) (hheld : 0 < s.held) {quiet : History}
    (hquiet : ∀ i ∈ quiet, i.isQuiet) (hup : .faded ∉ quiet) : InUse rd x raw r { s with
      held := s.held - 1, going := .drop s.wrapper :: s.going, history := s.history ++ quiet } := by
  have hcount : s.held - 1 + (Frame.drop s.wrapper :: s.going).count (.drop s.wrapper)
      = s.references := by
    rw [List.count_cons_self, references]
    omega
  refine hs.recount rfl ?_ ?_ rfl ?_ rfl hquiet hup
  · rw [references, hcount]
    exact hs.referenced
  · rw [references, hcount]
    exact hs.wrapper
  · intro f hf
    rcases List.mem_cons.1 hf with rfl | hf
    · rfl
    · exact hs.going f hf

theorem read (hs : InUse rd x raw r s) {n : Nat} {result : Except IoError (List UInt8)}
    {world : World σ} (h : s.world.read rd s.wrapper n = some (result, world)) :
    InUse rd x raw r { s with world, history := s.history ++ [.read n result] } := by
  obtain ⟨rfl, rfl⟩ : result = (rd n (rd.after r.state s.history.lengths)).1 ∧
      world = s.world.updateRaw raw fun r' => { r' with state := (rd n r'.state).2 } := by
    simpa [World.read, World.readThrough, hs.wrapper, hs.raw, eq_comm] using h
  have hlengths := s.history.lengths_concat (.read n (rd n (rd.after r.state s.history.lengths)).1)
  constructor
  case referenced => exact hs.referenced
  case wrapper => exact hs.wrapper
  case raw =>
    rw [hlengths, Incident.length?, Option.toList_some, rd.after_append]
    simp [World.updateRaw, hs.raw]
  case results =>
    rw [hlengths, Incident.length?, Option.toList_some, rd.replay_append, ← hs.results]
    exact s.history.results_concat _
  case going => exact hs.going
  case upgradable => simpa using hs.upgradable
  case taken => exact (s.history.taken_concat _).trans (by rw [hs.taken]; rfl)
  case posted => exact (s.history.posted_concat _).trans (by rw [hs.posted]; rfl)

/-- If there is one reference only and it is held, none is about to go. -/
theorem going_eq_nil (hs : InUse rd x raw r s) (hheld : 0 < s.held) (hone : s.references = 1) :
    s.going = [] := by
  have hcount : s.going.count (.drop s.wrapper) = 0 := by
    rw [references] at hone
    omega
  apply List.eq_nil_iff_forall_not_mem.2
  intro f hf
  exact List.count_eq_zero.1 hcount (hs.going f hf ▸ hf)

/-- The only reference is given up for the raw handle, and nothing is left to be posted. -/
theorem take (hs : InUse rd x raw r s) (hheld : 0 < s.held) {world : World σ} {raw' : RawId}
    (h : s.world.intoRaw? s.wrapper = some (world, raw')) : Over rd x raw r { s with
      world, held := s.held - 1, going := finalizing world s.wrapper ++ s.going
      history := s.history ++ [.taken raw'] } := by
  obtain ⟨y, hy, hone, hraw, rfl⟩ := World.intoRaw?_eq_some_iff.1 h
  cases hs.wrapper.symm.trans hy
  cases hraw
  have hgoing := hs.going_eq_nil hheld hone
  -- The finalizer still runs, but the stream is no longer there.
  have hx := World.getElem?_updateWrapper hs.wrapper
    (fun x => { x with strong := 0, stream := none }) s.wrapper
  rw [if_pos rfl] at hx
  have hfinal : finalizing (s.world.updateWrapper s.wrapper
      fun x => { x with strong := 0, stream := none }) s.wrapper = [] := by
    simp [finalizing, hx, Wrapper.death?]
  constructor
  case unreferenced =>
    have hheld : s.held = 1 := by simpa [references, hgoing] using hone
    simp [references, hfinal, hgoing, hheld]
  case wrapper => exact hx
  case results =>
    rw [s.history.lengths_concat, s.history.results_concat]
    simpa [Incident.length?, Incident.result?] using hs.results
  case going => simp [hfinal, hgoing]
  case ended =>
    refine .inl ⟨?_, ?_, ?_⟩
    · rw [s.history.taken_concat, hs.taken]
      rfl
    · rw [s.history.posted_concat, hs.posted]
      rfl
    · simp [posting, hfinal, hgoing]

/-- A reference goes. If it is the last one, what it leaves is the death to be posted. -/
theorem turn (hs : InUse rd x raw r s) {before after : List Frame} {f : Frame} {turn : Turn σ}
    (hgoing : s.going = before ++ f :: after) (h : s.world.step [f] = some turn) :
    let s' := { s with
      world := turn.world, going := before ++ turn.frames ++ after
      history := s.history ++ (f.posting?.map fun (home, note) => .posted home note).toList }
    InUse rd x raw r s' ∨ Over rd x raw r s' := by
  -- All that is going on in this wrapper are references that go; one of them has its turn.
  obtain rfl : f = .drop s.wrapper := hs.going f (by simp [hgoing])
  have hothers : ∀ g ∈ before ++ after, g = .drop s.wrapper := by
    intro g hg
    apply hs.going
    rw [hgoing]
    exact List.mem_append.2 ((List.mem_append.1 hg).imp_right (List.mem_cons_of_mem _))
  have hcount : s.references = s.held + (before ++ after).count (.drop s.wrapper) + 1 := by
    rw [references, hgoing]
    simp
    omega
  have hquiet : (s.history ++ ((Frame.drop s.wrapper).posting?.map
      fun (home, note) => Incident.posted home note).toList) = s.history := List.append_nil _
  simp only [hquiet]
  by_cases hone : s.references = 1
  case pos =>
    rw [World.step_drop_last hs.wrapper hone rfl] at h
    cases h
    have hnone : before ++ after = [] := by
      apply List.eq_nil_iff_forall_not_mem.2
      intro g hg
      have hc : (before ++ after).count (.drop s.wrapper) = 0 := by omega
      exact List.count_eq_zero.1 hc (hothers g hg ▸ hg)
    obtain ⟨rfl, rfl⟩ := List.append_eq_nil_iff.1 hnone
    refine .inr ?_
    constructor
    case unreferenced =>
      have hheld : s.held = 0 := by omega
      simp [references, hheld]
    case wrapper =>
      rw [World.getElem?_updateWrapper hs.wrapper, if_pos rfl]
    case results => exact hs.results
    case going =>
      intro g hg
      cases List.mem_singleton.1 hg
      rfl
    case ended => exact .inr ⟨hs.taken, by rw [hs.posted]; rfl⟩
  case neg =>
    rw [World.step_drop_more hs.wrapper hone] at h
    cases h
    have hleft : s.held + (before ++ [] ++ after).count (Frame.drop s.wrapper)
        = s.references - 1 := by
      rw [List.append_nil]
      omega
    have hmore := hs.referenced
    refine .inl (hs.recount rfl ?_ ?_ rfl ?_ (List.append_nil _).symm History.isQuiet_nil
      List.not_mem_nil)
    · simp only [references, World.finish]
      omega
    · simp only [World.finish]
      rw [World.getElem?_updateWrapper hs.wrapper, if_pos rfl, ← hleft]
      rfl
    · simpa [World.finish] using hothers

theorem step (hs : InUse rd x raw r s) (h : Step rd s s') :
    InUse rd x raw r s' ∨ Over rd x raw r s' := by
  cases h with
  | clone hheld =>
    have hretain := hs.retain History.isQuiet_nil List.not_mem_nil
    rw [List.append_nil] at hretain
    exact .inl hretain
  | drop hheld =>
    have hletGo := hs.letGo hheld History.isQuiet_nil List.not_mem_nil
    rw [List.append_nil] at hletGo
    exact .inl hletGo
  | upgrade h =>
    obtain ⟨-, rfl⟩ := World.upgrade?_eq_some_iff.1 h
    exact .inl (hs.retain (by simp [Incident.isQuiet]) (by simp))
  | fade h =>
    have hnone : s.references = 0 := hs.strong_eq.symm.trans (World.upgrade?_eq_none_iff.1 h)
    exact absurd hnone (Nat.ne_of_gt hs.referenced)
  | read hheld h => exact .inl (hs.read h)
  | take hheld h => exact .inr (hs.take hheld h)
  | refuse hheld h => exact .inl (hs.letGo hheld (by simp [Incident.isQuiet]) (by simp))
  | turn hgoing h => exact hs.turn hgoing h
  | @closed before f after turn error hgoing h =>
    obtain rfl : f = .drop s.wrapper := hs.going f (by simp [hgoing])
    cases h
  | @elsewhere world hx hstream =>
    rw [World.stream?_eq hs.wrapper rfl, World.stream?_eq (hx.trans hs.wrapper) rfl] at hstream
    exact .inl { hs with wrapper := hx.trans hs.wrapper, raw := hstream.trans hs.raw }

theorem posting_eq_nil (hs : InUse rd x raw r s) : s.posting = [] := by
  apply List.filterMap_eq_nil_iff.2
  intro f hf
  rw [hs.going f hf]
  rfl

theorem isSome_read (hs : InUse rd x raw r s) (n : Nat) :
    (s.world.read rd s.wrapper n).isSome := by
  simp [World.read, World.readThrough, hs.wrapper, hs.raw]

theorem isSome_intoRaw?_iff (hs : InUse rd x raw r s) :
    (s.world.intoRaw? s.wrapper).isSome ↔ s.references = 1 := by
  simp [Option.isSome_iff_exists, World.intoRaw?_eq_some_iff, hs.wrapper]

end InUse

/-! ## A wrapper that is over -/

namespace Over

theorem strong_eq (hs : Over rd x raw r s) : s.world.strong s.wrapper = 0 :=
  World.strong_eq hs.wrapper

theorem held_eq (hs : Over rd x raw r s) : s.held = 0 :=
  Nat.eq_zero_of_add_eq_zero_right hs.unreferenced

/-- A finalizer goes on, and posts what it is about to post. -/
theorem goOn (hs : Over rd x raw r s) {before after frames : List Frame} {f : Frame}
    {world : World σ} (hgoing : s.going = before ++ f :: after)
    (hwrappers : world.wrappers = s.world.wrappers) (hfinal : ∀ g ∈ frames, g.isFinal)
    (hposts : frames.filterMap Frame.posting? = []) : Over rd x raw r { s with
      world, going := before ++ frames ++ after
      history := s.history ++ (f.posting?.map fun (home, note) => .posted home note).toList } := by
  have hfinals : ∀ g ∈ before ++ frames ++ after, g.isFinal := by
    intro g hg
    rcases List.mem_append.1 hg with hg | hg
    · rcases List.mem_append.1 hg with hg | hg
      · exact hs.going g (hgoing ▸ List.mem_append_left _ hg)
      · exact hfinal g hg
    · exact hs.going g (hgoing ▸ List.mem_append_right _ (List.mem_cons_of_mem _ hg))
  obtain ⟨hlengths, hresults, htaken, hposted⟩ := s.history.append_death f.posting?
  have hposting : s.posting
      = before.filterMap Frame.posting? ++ f.posting?.toList ++ after.filterMap Frame.posting? := by
    rw [posting, hgoing, List.filterMap_append]
    cases hf : f.posting? <;> simp [hf]
  have hposting' : (before ++ frames ++ after).filterMap Frame.posting?
      = before.filterMap Frame.posting? ++ after.filterMap Frame.posting? := by
    rw [List.filterMap_append, List.filterMap_append, hposts, List.append_nil]
  constructor
  case unreferenced =>
    have hcount : (before ++ frames ++ after).count (.drop s.wrapper) = 0 :=
      List.count_eq_zero.2 fun hdrop => nomatch hfinals _ hdrop
    rw [references, hs.held_eq, hcount]
  case wrapper => rw [hwrappers, hs.wrapper]
  case results => rw [hlengths, hresults, hs.results]
  case going => exact hfinals
  case ended =>
    rw [htaken, hposted, posting, hposting']
    rcases hs.ended with ⟨ht, hp, hnone⟩ | ⟨ht, hone⟩
    · rw [hposting] at hnone
      simp only [List.append_eq_nil_iff] at hnone
      exact .inl ⟨ht, by simp [hp, hnone], by simp [hnone]⟩
    · refine .inr ⟨ht, ?_⟩
      rw [hposting] at hone
      cases hf : f.posting? with
      | none => simpa [hf] using hone
      | some death =>
        -- There is one death in all, so this is it.
        rw [hf, Option.toList_some, List.append_assoc, ← List.append_assoc,
          List.append_eq_singleton_iff] at hone
        obtain ⟨hbefore, hafter⟩ | ⟨-, hafter⟩ := hone
        · obtain ⟨hp, hbefore⟩ := List.append_eq_nil_iff.1 hbefore
          obtain ⟨rfl, hafter⟩ := List.cons.inj hafter
          simp [hp, hbefore, hafter]
        · cases hafter

theorem step (hs : Over rd x raw r s) (h : Step rd s s') : Over rd x raw r s' := by
  have hheld : s.held = 0 := hs.held_eq
  cases h with
  | clone h => omega
  | drop h => omega
  | upgrade h =>
    rw [World.upgrade?_eq_none_iff.2 hs.strong_eq] at h
    cases h
  | fade h =>
    have hquiet : ∀ i ∈ ([.faded] : History), i.isQuiet := by simp [Incident.isQuiet]
    obtain ⟨hlengths, hresults, htaken, hposted⟩ := History.append_quiet s.history hquiet
    constructor
    case unreferenced => exact hs.unreferenced
    case wrapper => exact hs.wrapper
    case results => rw [hlengths, hresults, hs.results]
    case going => exact hs.going
    case ended =>
      rw [htaken, hposted]
      exact hs.ended
  | read h _ => omega
  | take h _ => omega
  | refuse h _ => omega
  | @turn before f after turn hgoing h =>
    have hf : f.isFinal := hs.going f (by simp [hgoing])
    obtain ⟨hwrappers, hfinal, hposts⟩ := Frame.final_turn hf h
    exact hs.goOn hgoing hwrappers hfinal hposts
  | @closed before f after turn error hgoing h =>
    have hf : f.isFinal := hs.going f (by simp [hgoing])
    cases f with
    | closing raw' X entry cause =>
      have hclosed : turn.frames = [] ∧ turn.world.wrappers = s.world.wrappers := by
        cases h
        exact ⟨rfl, rfl⟩
      have hnone : ∀ g ∈ ([] : List Frame), g.isFinal := fun _ hg => nomatch hg
      simpa [hclosed.1, Frame.posting?] using hs.goOn hgoing hclosed.2 hnone rfl
    | _ => cases h
  | elsewhere hx hstream => exact { hs with wrapper := hx.trans hs.wrapper }

end Over

/-! ## From the first reference to the last -/

theorem InUse.start {w : World σ} {p : PoolId} {X : Identity} {entry : Entry}
    (hr : w.raws[raw]? = some r) : InUse rd
      { identity := X, entry, home := p, stream := some raw } raw r (start w p X entry raw) where
  referenced := Nat.one_pos
  wrapper := by rw [Tenure.start, World.getElem?_addWrapper, if_pos rfl]; rfl
  raw := hr
  results := rfl
  going := fun _ hf => nomatch hf
  upgradable := List.not_mem_nil
  taken := rfl
  posted := rfl

/-- Whatever is done with its references, a wrapper is either in use or over. -/
theorem InUse.reaches (hs : InUse rd x raw r s) (h : Reaches rd s s') :
    InUse rd x raw r s' ∨ Over rd x raw r s' := by
  induction h with
  | refl => exact .inl hs
  | tail _ hstep ih =>
    rcases ih with hs | hs
    · exact hs.step hstep
    · exact .inr (hs.step hstep)

theorem Over.reaches (hs : Over rd x raw r s) (h : Reaches rd s s') : Over rd x raw r s' := by
  induction h with
  | refl => exact hs
  | tail _ hstep ih => exact ih.step hstep

/-- Once the raw handle has been given back, no death is posted any more. -/
theorem Over.reaches_taken (hs : Over rd x raw r s) (htaken : s.history.taken = [raw])
    (h : Reaches rd s s') :
    s'.history.taken = [raw] ∧ s'.history.posted = [] ∧ s'.posting = [] := by
  rcases (hs.reaches h).ended with hended | ⟨hnone, -⟩
  · exact hended
  · have hprefix := h.history_prefix.filterMap Incident.taken?
    rw [← History.taken, ← History.taken, htaken, hnone] at hprefix
    cases List.prefix_nil.1 hprefix

/-- What is done with the references of one wrapper, in any order: a weak reference gives a strong
one exactly as long as there is one, and never again once it has not. What is read is what the raw
handle alone gives. As long as there is a reference, the stream stands where the reads have brought
it, whoever has asked for the raw handle in vain, and a reference that is held can be read; it is
given up for the raw handle exactly if it is the only one. With the last reference it has come
to this: either the raw handle was given back, once, and no death is ever posted, or it never was,
and the one death of the wrapper has been posted, or is about to be. To post it is to put it into
the queue, or to close what it carries if there is no queue any more. -/
theorem life_cycle (rd : Reader σ) {w : World σ} {p : PoolId} {X : Identity} {entry : Entry}
    {raw : RawId} {r : RawHandle σ} {s : Tenure σ} (hr : w.raws[raw]? = some r)
    (hs : Reaches rd (start w p X entry raw) s) :
    ((s.world.upgrade? s.wrapper).isSome ↔ 0 < s.references) ∧
    (.faded ∈ s.history → s.world.upgrade? s.wrapper = none) ∧
    s.history.results = rd.replay r.state s.history.lengths ∧
    (0 < s.references →
      s.world.stream? s.wrapper = some { r with state := rd.after r.state s.history.lengths } ∧
      s.history.taken = [] ∧ s.history.posted = [] ∧ s.posting = []) ∧
    (0 < s.held → (∀ n, (s.world.read rd s.wrapper n).isSome) ∧
      ((s.world.intoRaw? s.wrapper).isSome ↔ s.references = 1)) ∧
    (s.references = 0 →
      (∀ s', Reaches rd s s' →
        s'.history.taken = [raw] ∧ s'.history.posted = [] ∧ s'.posting = []) ∨
      (s.history.taken = [] ∧ s.history.posted ++ s.posting = [(p, ⟨X, entry, raw⟩)])) ∧
    ∃ turn, s.world.step [.post p ⟨X, entry, raw⟩] = some turn ∧
      (s.world.isUp p → turn.frames = [] ∧
        turn.world.pending p = s.world.pending p ++ [⟨X, entry, raw⟩]) ∧
      (¬ s.world.isUp p → turn.frames = [.close raw X entry .death]) := by
  have hpost := World.step_post s.world p ⟨X, entry, raw⟩
  rcases (InUse.start hr).reaches hs with hs | hs
  case inl =>
    have hlive : (s.world.upgrade? s.wrapper).isSome ↔ 0 < s.references := by
      rw [World.isSome_upgrade?_iff, hs.strong_eq]
    have hstream := (World.stream?_eq hs.wrapper rfl).trans hs.raw
    exact ⟨hlive, fun hfaded => absurd hfaded hs.upgradable, hs.results,
      fun _ => ⟨hstream, hs.taken, hs.posted, hs.posting_eq_nil⟩,
      fun _ => ⟨hs.isSome_read, hs.isSome_intoRaw?_iff⟩,
      fun hnone => absurd hnone (Nat.ne_of_gt hs.referenced), hpost⟩
  case inr =>
    have hlive : (s.world.upgrade? s.wrapper).isSome ↔ 0 < s.references := by
      rw [World.isSome_upgrade?_iff, hs.strong_eq, hs.unreferenced]
    refine ⟨hlive, fun _ => World.upgrade?_eq_none_iff.2 hs.strong_eq, hs.results,
      fun hpos => absurd hs.unreferenced (Nat.ne_of_gt hpos),
      fun hheld => absurd hs.held_eq (Nat.ne_of_gt hheld), fun _ => ?_, hpost⟩
    rcases hs.ended with ⟨htaken, -, -⟩ | hended
    · exact .inl fun s' hs' => hs.reaches_taken htaken hs'
    · exact .inr hended

/-- A pool, and a raw handle that was opened for it. -/
def shelf (data : List UInt8) (wrappers : List Wrapper) (queue : List Note) : World Source where
  raws := [{ identity := ⟨.ofString "/a"⟩, state := .script [.data data] }]
  wrappers := wrappers
  pools := [{ queue := some queue }]

/-- The wrapper of the raw handle. -/
def volume (strong : Nat) (stream : Option RawId) : Wrapper :=
  { identity := ⟨.ofString "/a"⟩, entry := 3, home := 0, strong, stream }

def shelved : Tenure Source := start (shelf [1, 2, 3] [] []) 0 ⟨.ofString "/a"⟩ 3 0

/-- Two holders ask for the raw handle at a time, both in vain, and so it comes out with the one
death; or one lets go first, and the other is given it. -/
theorem life_cycle_shelved :
    (∃ s, Reaches Source.read shelved s ∧ s.references = 0 ∧ s.posting = [] ∧
      s.history.results = [.ok [1, 2]] ∧ s.history.taken = [] ∧
      s.history.posted = [(0, ⟨⟨.ofString "/a"⟩, 3, 0⟩)]) ∧
    ∃ s, Reaches Source.read shelved s ∧ ∀ s', Reaches Source.read s s' →
      s'.history.taken = [0] ∧ s'.history.posted = [] ∧ s'.posting = [] := by
  let drop : Frame := .drop 0
  let note : Note := ⟨⟨.ofString "/a"⟩, 3, 0⟩
  have hshared : Reaches Source.read shelved
      ⟨shelf [1, 2, 3] [volume 2 (some 0)] [], 0, 2, [], []⟩ := .single (.clone Nat.one_pos)
  constructor
  · let told : History := [.read 2 (.ok [1, 2]), .refused, .refused]
    have hread : Reaches Source.read shelved
        ⟨shelf [3] [volume 2 (some 0)] [], 0, 2, [], [.read 2 (.ok [1, 2])]⟩ :=
      hshared.tail (.read Nat.two_pos rfl)
    have hasked : Reaches Source.read shelved
        ⟨shelf [3] [volume 2 (some 0)] [], 0, 1, [drop], [.read 2 (.ok [1, 2]), .refused]⟩ :=
      hread.tail (.refuse Nat.two_pos rfl)
    have hrefused : Reaches Source.read shelved
        ⟨shelf [3] [volume 2 (some 0)] [], 0, 0, [drop, drop], told⟩ :=
      hasked.tail (.refuse Nat.one_pos rfl)
    have hleft : Reaches Source.read shelved
        ⟨shelf [3] [volume 1 (some 0)] [], 0, 0, [drop], told⟩ :=
      hrefused.tail (@Step.turn _ _ _ [] drop [drop] ⟨_, [], [], some .done⟩ rfl rfl)
    have hover : Reaches Source.read shelved
        ⟨shelf [3] [volume 0 none] [], 0, 0, [.post 0 note], told⟩ :=
      hleft.tail (@Step.turn _ _ _ [] drop [] ⟨_, [.post 0 note], [], none⟩ rfl rfl)
    have hposted : Reaches Source.read shelved
        ⟨shelf [3] [volume 0 none] [note], 0, 0, [], told ++ [.posted 0 note]⟩ :=
      hover.tail (@Step.turn _ _ _ [] (.post 0 note) [] ⟨_, [], [], some .done⟩ rfl rfl)
    obtain ⟨-, -, hresults, -, -, hended, -⟩ := life_cycle Source.read rfl hposted
    refine ⟨_, hposted, rfl, rfl, hresults.trans rfl, rfl, ?_⟩
    rcases hended rfl with htaken | ⟨-, hone⟩
    · cases (htaken _ .refl).1
    · exact hone
  · have hdropped : Reaches Source.read shelved
        ⟨shelf [1, 2, 3] [volume 2 (some 0)] [], 0, 1, [drop], []⟩ :=
      hshared.tail (.drop Nat.two_pos)
    have halone : Reaches Source.read shelved
        ⟨shelf [1, 2, 3] [volume 1 (some 0)] [], 0, 1, [], []⟩ :=
      hdropped.tail (@Step.turn _ _ _ [] drop [] ⟨_, [], [], some .done⟩ rfl rfl)
    have htaken : Reaches Source.read shelved
        ⟨shelf [1, 2, 3] [volume 0 none] [], 0, 0, [], [.taken 0]⟩ :=
      halone.tail (.take Nat.one_pos rfl)
    obtain ⟨-, -, -, -, -, hended, -⟩ := life_cycle Source.read rfl htaken
    refine ⟨_, htaken, ?_⟩
    rcases hended rfl with htaken | ⟨hnone, -⟩
    · exact htaken
    · cases hnone

end Tenure

end ReadPool
