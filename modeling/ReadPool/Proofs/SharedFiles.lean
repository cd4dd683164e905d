import Mathlib
import ReadPool.FileTree.Change
import ReadPool.FileTree.Open
import ReadPool.Proofs.Canonicalize
import ReadPool.Proofs.CanonicalPath
import ReadPool.Proofs.IdentitiesApart
import ReadPool.Proofs.Process

/-!
# Files shared by canonical path

A lone caller of a process opens files by any spellings of their paths. What it holds is one stream
for each canonical path: the pool gives one for what is the same identity, and it knows a file by
nothing but the identity that its path was resolved to.
-/

namespace ReadPool

/-! ## Answers that are written down -/

theorem getD_find? {α β γ : Type*} [DecidableEq α] {notes : List (α × β)} {f : β → γ} {g : α → γ}
    (h : ∀ note ∈ notes, g note.1 = f note.2) (a : α) :
    ((notes.find? (·.1 = a)).map fun note => f note.2).getD (g a) = g a := by
  cases hfind : notes.find? (·.1 = a) with
  | none => rfl
  | some note =>
    obtain rfl : note.1 = a := by simpa using List.find?_some hfind
    exact (h note (List.mem_of_find?_eq_some hfind)).symm

namespace FileSystem

/-- The file system, with some of its answers written down: what paths are resolved to, and which
files are there to be opened. -/
def noting (fs : FileSystem σ) (targets : List (Path × Path)) (files : List (Path × σ)) :
    FileSystem σ where
  realpath path := ((targets.find? (·.1 = path)).map fun note => .ok note.2).getD (fs.realpath path)
  isDirectory path :=
    ((files.find? (·.1 = path)).map fun _ => .ok false).getD (fs.isDirectory path)
  openRead path := ((files.find? (·.1 = path)).map fun note => .ok note.2).getD (fs.openRead path)

theorem noting_eq {fs : FileSystem σ} {targets : List (Path × Path)} {files : List (Path × σ)}
    (htargets : ∀ note ∈ targets, fs.realpath note.1 = .ok note.2)
    (hfiles : ∀ note ∈ files, fs.isDirectory note.1 = .ok false ∧
      fs.openRead note.1 = .ok note.2) : fs.noting targets files = fs := by
  have hdirs : ∀ note ∈ files, fs.isDirectory note.1 = .ok false := fun note h => (hfiles note h).1
  have hopens : ∀ note ∈ files, fs.openRead note.1 = .ok note.2 := fun note h => (hfiles note h).2
  obtain ⟨realpath, isDirectory, openRead⟩ := fs
  rw [noting]
  congr 1
  · exact funext fun path => getD_find? htargets path
  · exact funext fun path => getD_find? (f := fun _ => Except.ok false) hdirs path
  · exact funext fun path => getD_find? hopens path

end FileSystem

/-! ## Raw handles that are not closed -/

/-- How many raw handles have not been closed. -/
def World.unclosed (w : World σ) : Nat := w.raws.countP fun r => r.phase ≠ .closed

theorem countP_eq_card_filter_range {α : Type*} (xs : List α) (P : α → Bool) (Q : Nat → Prop)
    [DecidablePred Q] (h : ∀ i x, xs[i]? = some x → (P x ↔ Q i)) :
    xs.countP P = ((Multiset.range xs.length).filter Q).card := by
  induction xs using List.reverseRecOn with
  | nil => rfl
  | append_singleton xs x ih =>
    have hlast := h xs.length x (by simp)
    have hfirst := ih fun i y hy =>
      h i y (by rw [List.getElem?_append_left (List.getElem?_eq_some_iff.1 hy).1, hy])
    rw [List.countP_append, List.length_append, List.length_singleton, Multiset.range_succ,
      hfirst, List.countP_singleton]
    by_cases hx : Q xs.length <;> simp [hx, hlast]

namespace System

variable {s : System σ} {p : PoolId} {pool : Pool}

/-- At rest all raw handles are those of the pool that all wrappers are of. -/
theorem Resting.opensBy_eq_range (hr : Resting s p pool)
    (hhome : ∀ (h : WrapperId) (x : Wrapper), s.world.wrappers[h]? = some x → x.home = p) :
    collect (Event.opensBy p) s.history = Multiset.range s.world.raws.length := by
  have ho := hr.valid.owned
  refine (Multiset.Nodup.ext (ho.nodup_opensBy p) (Multiset.nodup_range _)).2 fun raw => ?_
  rw [mem_opensBy]
  constructor
  · exact fun hopen => Multiset.mem_range.2 (ho.lt_of_opened hopen)
  · intro hraw
    -- At rest nothing waits to be wrapped, so what was opened has a wrapper, and that has a home.
    have hframes : s.scene.frames = 0 := congrArg _ hr.frames
    have hopens : raw ∈ (collect Event.opens s.history).map Prod.snd := by
      rw [show collect Event.opens s.history = collect Event.opens s.scene.history from rfl,
        ho.opens_eq]
      exact hraw
    obtain ⟨⟨q, raw⟩, hopen, rfl⟩ := Multiset.mem_map.1 hopens
    have hwrap : (q, raw) ∈ collect Event.wraps s.scene.history := by
      rw [← add_zero (collect Event.wraps _), ← collect_zero Frame.unwrapped, ← hframes,
        ho.wraps_eq]
      exact hopen
    obtain ⟨ev, hev, hm⟩ := mem_collect.1 hwrap
    cases ev with
    | wrapped q' h raw' =>
      obtain ⟨rfl, rfl⟩ : q = q' ∧ raw = raw' := by simpa [Event.wraps] using hm
      obtain ⟨x, hx, rfl⟩ := ho.home_of_wrapped q h raw hev
      exact hhome h x hx ▸ ho.opened_of_wrapped hev
    | _ => simp [Event.wraps] at hm

/-- At rest, with nothing to receive, the raw handles that are not closed are those of the table. -/
theorem Resting.unclosed_eq (hr : Resting s p pool) (hn : s.world.pending p = [])
    (hhome : ∀ (h : WrapperId) (x : Wrapper), s.world.wrappers[h]? = some x → x.home = p) :
    s.world.unclosed = pool.slots.size := by
  have ho := hr.valid.owned
  have hcount : s.world.unclosed
      = ((Multiset.range s.world.raws.length).filter fun raw => .closed raw ∉ s.history).card := by
    refine countP_eq_card_filter_range _ _ _ fun raw r hraw => ?_
    rw [decide_eq_true_iff, Ne, hr.valid.closed_iff hraw]
    rfl
  rw [hcount, ← hr.opensBy_eq_range hhome, hr.opensBy_eq hn, Multiset.filter_add,
    Multiset.filter_eq_nil.2, zero_add, Multiset.filter_eq_self.2, Multiset.coe_card,
    List.length_map]
  · rfl
  · intro raw hraw hc
    obtain ⟨e, he, rfl⟩ := List.mem_map.1 (Multiset.mem_coe.1 hraw)
    exact ho.not_closed_of_mem_streams (hr.raw_of_mem hn he).1 (Scene.mem_closes.2 hc)
  · intro raw hraw hc
    exact hc (Scene.mem_closes.1 (Multiset.mem_filter.1 hraw).1)

end System

/-! ## What an operation leaves behind -/

namespace Registry

variable {env : Environment σ} {r : Registry σ} {X : Identity} {c : Cell σ} {g k : Nat}
  {op : Operation}

/-- A change of a stream that is referenced does not make another one so. -/
theorem isSome_of_update {f : Cell σ → Cell σ} (hf : Keeps f) (hc : r.holding? g = some c)
    (h : ((r.update g f).holding? k).isSome) : (r.holding? k).isSome := by
  rw [holding?_update hf hc] at h
  split at h
  · next hk => simp [hk, hc]
  · exact h

theorem isSome_of_whileHeld {after : Cell σ → Outcome × Registry σ}
    (h : ((r.whileHeld g after).2.holding? k).isSome)
    (hafter : ∀ c, r.holding? g = some c → ((after c).2.holding? k).isSome →
      (r.holding? k).isSome) : (r.holding? k).isSome := by
  unfold whileHeld at h
  split at h
  · exact h
  · next c hc => exact hafter c hc h

namespace Proper

/-- A stream that is referenced after an operation was so before, or it is what was acquired. -/
theorem isSome_of_perform (hp : Proper r) (h : ((r.perform env op).2.holding? g).isSome) :
    (r.holding? g).isSome ∨ ∃ X, op = .acquire X ∧ (r.perform env op).1 = .acquired (.ok g) := by
  cases op with
  | acquire X =>
    simp only [Registry.perform] at h ⊢
    cases hc : r.current? X with
    | some c =>
      rw [hc] at h
      exact .inl (isSome_of_update keeps_retain (hp.current?_eq_some_iff.1 hc).1 h)
    | none =>
      rw [hc] at h
      dsimp only at h ⊢
      split at h
      · exact .inl h
      · next state hopen =>
        have hp' : Proper { r with attempts := r.attempts + 1 } :=
          ⟨hp.distinct, hp.numbered, hp.lt⟩
        rw [hp'.holding?_start hc] at h
        split at h
        · next hg =>
          right
          exact ⟨X, rfl, by simp [hg]⟩
        · exact .inl h
  | clone k => exact .inl (isSome_of_whileHeld h fun _ => isSome_of_update keeps_retain)
  | drop k => exact .inl (isSome_of_whileHeld h fun _ => isSome_of_update keeps_release)
  | close k => exact .inl (isSome_of_whileHeld h fun _ _ => id)
  | read k n => exact .inl (isSome_of_whileHeld h fun _ => isSome_of_update (keeps_leave _))
  | purge => exact .inl h

/-- What an acquisition gives is referenced, and is of the identity asked for. -/
theorem holding?_of_acquired (hp : Proper r)
    (h : (r.perform env (.acquire X)).1 = .acquired (.ok g)) :
    ∃ c, (r.perform env (.acquire X)).2.holding? g = some c ∧ c.identity.Same X := by
  simp only [Registry.perform] at h ⊢
  cases hc : r.current? X with
  | some c =>
    rw [hc] at h
    cases h
    obtain ⟨hg, hX⟩ := hp.current?_eq_some_iff.1 hc
    refine ⟨c.retain, ?_, hX⟩
    have hl : c.retain.isLive := decide_eq_true (Nat.succ_pos _)
    rw [holding?_update_of_isLive keeps_retain hg hl, if_pos rfl]
  | none =>
    rw [hc] at h
    dsimp only at h ⊢
    split at h
    · cases h
    · next state hopen =>
      cases h
      have hp' : Proper { r with attempts := r.attempts + 1 } := ⟨hp.distinct, hp.numbered, hp.lt⟩
      exact ⟨⟨X, r.generations, 1, state⟩, (hp'.holding?_start hc state _).trans (if_pos rfl),
        .refl X⟩

end Proper

end Registry

namespace System.Simulates

variable {env : Environment σ} {r : Registry σ} {s : System σ}

/-- An operation of a lone caller, with what it leaves: wrappers keep what they were made for, and
no reference comes to be held but by being acquired. -/
theorem perform_keeps (h : Simulates r s) (env : Environment σ) (ht : s.threads = [[]])
    (op : Operation) : ∃ outcome s' r', s.perform env op = some (outcome, s') ∧
      s'.threads = [[]] ∧ Simulates r' s' ∧ s.made <+: s'.made ∧
      (∀ g ∈ s'.held, g ∈ s.held ∨ ∃ X, op = .acquire X ∧ outcome = .acquired (.ok g)) ∧
      ∀ X g, op = .acquire X → outcome = .acquired (.ok g) →
        ∃ Y, s'.made[g]? = some Y ∧ Y.Same X := by
  obtain ⟨s', hop, ht', h', -, hmade⟩ := h.exists_perform ht env op
  refine ⟨_, s', _, hop, ht', h', hmade ▸ List.prefix_append _ _, fun g hg => ?_, ?_⟩
  · have hnow := (h'.contains_iff ht' g).1 (List.contains_iff_mem.2 hg)
    refine (h.proper.isSome_of_perform (Option.isSome_iff_exists.2 hnow)).imp_left fun hbefore => ?_
    exact List.contains_iff_mem.1 ((h.contains_iff ht g).2 (Option.isSome_iff_exists.1 hbefore))
  · rintro X g rfl hgiven
    obtain ⟨c, hc, hX⟩ := h.proper.holding?_of_acquired hgiven
    obtain ⟨x, raw, raw', hx, -, -, -, rfl⟩ := h'.exists_wrapper hc
    exact ⟨x.identity, made_eq_some_iff.2 ⟨x, hx, rfl⟩, hX⟩

/-- The slot of what is held leads to it. -/
theorem slot?_of_held (h : Simulates r s) (ht : s.threads = [[]]) {g : WrapperId}
    (hg : g ∈ s.held) {X : Identity} (hX : s.made[g]? = some X) :
    ∃ entry, s.world.slot? 0 X = some ⟨entry, g⟩ := by
  obtain ⟨c, hc⟩ := (h.contains_iff ht g).1 (List.contains_iff_mem.2 hg)
  obtain ⟨x, raw, raw', hx, -, -, hpos, -⟩ := h.exists_wrapper hc
  obtain rfl : x.identity = X :=
    Option.some.inj ((made_eq_some_iff.2 ⟨x, hx, rfl⟩).symm.trans hX)
  exact ⟨x.entry, h.kempt.live g x hx hpos⟩

/-- What is held of one identity is one wrapper. -/
theorem eq_of_same (h : Simulates r s) (ht : s.threads = [[]]) {g k : WrapperId}
    (hg : g ∈ s.held) (hk : k ∈ s.held) {X Y : Identity} (hX : s.made[g]? = some X)
    (hY : s.made[k]? = some Y) (hXY : X.Same Y) : g = k := by
  obtain ⟨entry, hslot⟩ := h.slot?_of_held ht hg hX
  obtain ⟨entry', hslot'⟩ := h.slot?_of_held ht hk hY
  rw [World.slot?_congr hXY, hslot'] at hslot
  exact congrArg Slot.wrapper (Option.some.inj hslot).symm

end System.Simulates

/-! ## Runs of a process -/

namespace Process

variable {fs : FileSystem σ} {reading : Reader σ} {s : Process σ} {path : Path} {X : Identity}
  {given : List (Path × WrapperId)} {r : Registry σ}

/-- The only thread has nothing to do, and the shared pool is not there yet, or it is as some run
has left it. -/
def Rests (s : Process σ) : Prop :=
  s = {} ∨ s.shared = some 0 ∧ s.system.threads = [[]] ∧ ∃ r, System.Simulates r s.system

/-- What has been given for paths: each handle is one of its file, by the path that it was resolved
to, and nothing is held that was not given for a path. -/
structure Shares (fs : FileSystem σ) (given : List (Path × WrapperId)) (s : Process σ) : Prop where
  rests : s.Rests
  named : ∀ path h, (path, h) ∈ given → ∃ X Y, fs.canonicalize path = .ok X ∧
    s.system.made[h]? = some Y ∧ Y.Same X
  given : ∀ h ∈ s.system.held, ∃ path, (path, h) ∈ given

/-- With the shared pool, a process is as before but for that. -/
theorem Rests.withPool (h : s.Rests) : s.withPool.2 = 0 ∧ s.withPool.1.shared = some 0 ∧
    s.withPool.1.system.threads = [[]] ∧ (∃ r, System.Simulates r s.withPool.1.system) ∧
    s.withPool.1.system.made = s.system.made ∧ s.withPool.1.system.held = s.system.held := by
  rcases h with rfl | ⟨hshared, ht, hr⟩
  · exact ⟨rfl, rfl, rfl, ⟨{}, .alone {}⟩, rfl, rfl⟩
  · rw [withPool_of_shared hshared]
    exact ⟨rfl, hshared, ht, hr, rfl, rfl⟩

theorem Shares.start (fs : FileSystem σ) : Shares fs [] ({} : Process σ) :=
  ⟨.inl rfl, by simp, by simp⟩

/-- An operation on the shared pool, when `more` is what it has given for paths. -/
theorem Shares.perform (h : Shares fs given s) (ht : s.system.threads = [[]])
    (hr : System.Simulates r s.system) (env : Environment σ) (op : Operation) :
    ∃ outcome system, s.system.perform env op = some (outcome, system) ∧ ∀ more,
      (∀ call ∈ more, ∃ X, fs.canonicalize call.1 = .ok X ∧ op = .acquire X ∧
        outcome = .acquired (.ok call.2)) →
      (∀ X g, op = .acquire X → outcome = .acquired (.ok g) → ∃ path, (path, g) ∈ more) →
      Shares fs (given ++ more) ⟨system, some 0⟩ := by
  obtain ⟨outcome, system, r', hop, ht', hr', hmade, hheld, hacquired⟩ := hr.perform_keeps env ht op
  refine ⟨outcome, system, hop, fun more hmore hgiven => ⟨.inr ⟨rfl, ht', r', hr'⟩, ?_, ?_⟩⟩
  · intro path g hcall
    rcases List.mem_append.1 hcall with hcall | hcall
    · obtain ⟨X, Y, hX, hY, hsame⟩ := h.named path g hcall
      obtain ⟨hlt, rfl⟩ := List.getElem?_eq_some_iff.1 hY
      exact ⟨X, _, hX, List.prefix_iff_getElem?.1 hmade g hlt, hsame⟩
    · obtain ⟨X, hX, hop, houtcome⟩ := hmore _ hcall
      obtain ⟨Y, hY, hsame⟩ := hacquired X g hop houtcome
      exact ⟨X, Y, hX, hY, hsame⟩
  · intro g hg
    rcases hheld g hg with hbefore | ⟨X, hop, houtcome⟩
    · obtain ⟨path, hcall⟩ := h.given g hbefore
      exact ⟨path, List.mem_append_left _ hcall⟩
    · obtain ⟨path, hcall⟩ := hgiven X g hop houtcome
      exact ⟨path, List.mem_append_right _ hcall⟩

theorem Shares.withPool (h : Shares fs given s) : Shares fs given s.withPool.1 := by
  obtain ⟨-, hshared, ht, hr, hmade, hheld⟩ := h.rests.withPool
  exact ⟨.inr ⟨hshared, ht, hr⟩, hmade ▸ h.named, hheld ▸ h.given⟩

@[simp] theorem mem_given_openShared {path : Path} {outcome : Outcome} {call : Path × WrapperId} :
    call ∈ (Request.openShared path).given outcome ↔
      call.1 = path ∧ outcome = .acquired (.ok call.2) := by
  unfold Request.given
  split
  · next p g hq =>
    cases hq
    rw [List.mem_singleton, Prod.ext_iff]
    simp [eq_comm]
  · next hne =>
    simp only [List.not_mem_nil, false_iff, not_and]
    rintro rfl houtcome
    exact hne _ _ rfl houtcome

/-- By way of a handle nothing can be done to a process that has not given one. -/
theorem perform_use_start (env : Environment σ) (g : WrapperId) (use : Use) :
    ({} : Process σ).system.perform env (use.operation g)
      = some (.absent, ({} : Process σ).system) := by
  cases use <;> rfl

/-- Every request comes to its end, and what is held stays shared by canonical path. -/
theorem Shares.serve (h : Shares fs given s) (reading : Reader σ) (q : Request) :
    ∃ outcome s', s.serve fs reading q = some (outcome, s') ∧
      Shares fs (given ++ q.given outcome) s' := by
  obtain ⟨hp, hshared, ht, ⟨r, hr⟩, -⟩ := h.rests.withPool
  cases q with
  | openShared path =>
    cases hX : fs.canonicalize path with
    | error e =>
      refine ⟨_, s, openShared_of_error hX, ?_⟩
      simpa [Request.given] using h
    | ok X =>
      obtain ⟨outcome, system, hop, hmore⟩ :=
        h.withPool.perform ht hr (fs.environment reading) (.acquire X)
      refine ⟨outcome, ⟨system, some 0⟩, ?_, hmore _ ?_ ?_⟩
      · rw [Process.serve, openShared_of_ok hX, hp, call, ← hshared]
        exact congrArg (Option.map _) hop
      · intro call hcall
        obtain ⟨hpath, houtcome⟩ := mem_given_openShared.1 hcall
        exact ⟨X, hpath ▸ hX, rfl, houtcome⟩
      · exact fun _ g _ houtcome => ⟨path, mem_given_openShared.2 ⟨rfl, houtcome⟩⟩
  | use g use =>
    have hno : ∀ X, use.operation g ≠ .acquire X := by
      cases use <;> simp [Use.operation]
    -- Without a pool there is no handle, and no pool is made for the asking.
    rcases h.rests with rfl | ⟨hs, hthreads, r, hr⟩
    · refine ⟨.absent, {}, ?_, by simpa [Request.given] using h⟩
      rw [Process.serve, perform_use_start]
      rfl
    · obtain ⟨outcome, system, hop, hmore⟩ :=
        h.perform hthreads hr (fs.environment reading) (use.operation g)
      refine ⟨outcome, ⟨system, some 0⟩, ?_, hmore _ (by simp [Request.given]) ?_⟩
      · rw [Process.serve, hop, ← hs]
        rfl
      · exact fun X _ hX => absurd hX (hno X)
  | purge =>
    obtain ⟨outcome, system, hop, hmore⟩ := h.withPool.perform ht hr (fs.environment reading) .purge
    refine ⟨outcome, ⟨system, some 0⟩, ?_, hmore _ (by simp [Request.given]) ?_⟩
    · simp only [Process.serve, hp, call, ← hshared]
      exact congrArg (Option.map _) hop
    · rintro X g ⟨⟩

theorem Shares.run (h : Shares fs given s) (reading : Reader σ) (requests : List Request) :
    ∃ more s', s.run fs reading requests = some (more, s') ∧ Shares fs (given ++ more) s' := by
  induction requests generalizing given s with
  | nil => exact ⟨[], s, rfl, by simpa using h⟩
  | cons q requests ih =>
    obtain ⟨outcome, s₁, hq, h₁⟩ := h.serve reading q
    obtain ⟨more, s', hrun, h'⟩ := ih h₁
    refine ⟨q.given outcome ++ more, s', ?_, by rwa [← List.append_assoc]⟩
    simp only [Process.run, hq, Option.bind_some, hrun, Option.map_some]

/-- The canonical paths of what is held, once for each time that it was given. -/
def heldFiles (fs : FileSystem σ) (given : List (Path × WrapperId)) (s : Process σ) :
    List Identity :=
  (given.filter fun call => call.2 ∈ s.system.held).filterMap fun call =>
    (fs.canonicalize call.1).toOption

theorem mem_heldFiles : X ∈ heldFiles fs given s ↔
    ∃ path h, (path, h) ∈ given ∧ h ∈ s.system.held ∧ fs.canonicalize path = .ok X := by
  have htoOption (path : Path) :
      (fs.canonicalize path).toOption = some X ↔ fs.canonicalize path = .ok X := by
    cases fs.canonicalize path <;> simp [Except.toOption]
  simp [heldFiles, htoOption, and_assoc]

/-- The identities of held wrappers are the canonical paths of what is held. -/
theorem Shares.countDistinct_eq (h : Shares fs given s) (hr : System.Simulates r s.system) :
    Identity.countDistinct (s.system.heldIdentities 0)
      = Identity.countDistinct (heldFiles fs given s) := by
  rw [Identity.countDistinct_eq_card, Identity.countDistinct_eq_card]
  congr 1
  ext key
  simp only [List.mem_toFinset, List.mem_map, System.mem_heldIdentities, mem_heldFiles]
  constructor
  · rintro ⟨_, ⟨g, hg, x, hx, -, rfl⟩, rfl⟩
    obtain ⟨path, hcall⟩ := h.given g hg
    obtain ⟨X, Y, hX, hY, hsame⟩ := h.named path g hcall
    obtain rfl : x.identity = Y :=
      Option.some.inj ((System.made_eq_some_iff.2 ⟨x, hx, rfl⟩).symm.trans hY)
    exact ⟨X, ⟨path, g, hcall, hg, hX⟩, hsame.symm⟩
  · rintro ⟨X, ⟨path, g, hcall, hg, hX⟩, rfl⟩
    obtain ⟨X', Y, hX', hY, hsame⟩ := h.named path g hcall
    obtain rfl : X' = X := Except.ok.inj (hX'.symm.trans hX)
    obtain ⟨x, hx, rfl⟩ := System.made_eq_some_iff.1 hY
    exact ⟨x.identity, ⟨g, hg, x, hx, hr.kempt.home g x hx, rfl⟩, hsame⟩

/-- What is held of two paths is one wrapper just if the paths are resolved to the same path. -/
theorem Shares.eq_iff (h : Shares fs given s) {path' : Path} {g g' : WrapperId}
    (hcall : (path, g) ∈ given) (hcall' : (path', g') ∈ given) (hg : g ∈ s.system.held)
    (hg' : g' ∈ s.system.held) : g = g' ↔ ∃ target target', fs.realpath path = .ok target ∧
      fs.realpath path' = .ok target' ∧ target.components = target'.components := by
  obtain ⟨X, Y, hX, hY, hsame⟩ := h.named path g hcall
  obtain ⟨X', Y', hX', hY', hsame'⟩ := h.named path' g' hcall'
  obtain ⟨hreal, -⟩ := FileSystem.canonicalize_eq_ok_iff.1 hX
  obtain ⟨hreal', -⟩ := FileSystem.canonicalize_eq_ok_iff.1 hX'
  constructor
  · rintro rfl
    obtain rfl : Y = Y' := Option.some.inj (hY.symm.trans hY')
    exact ⟨X.path, X'.path, hreal, hreal', hsame.symm.trans hsame'⟩
  · rintro ⟨target, target', htarget, htarget', hcomponents⟩
    obtain rfl : X.path = target := Except.ok.inj (hreal.symm.trans htarget)
    obtain rfl : X'.path = target' := Except.ok.inj (hreal'.symm.trans htarget')
    have hXX' : X.Same X' := hcomponents
    obtain ⟨-, -, ht, ⟨r, hr⟩, hmade, hheld⟩ := h.rests.withPool
    exact hr.eq_of_same ht (hheld ▸ hg) (hheld ▸ hg') (hmade ▸ hY) (hmade ▸ hY')
      (hsame.trans (hXX'.trans hsame'.symm))

/-- A purge comes to its end, and leaves open one raw handle for each canonical path that is held.
-/
theorem Shares.purge (h : Shares fs given s) (reading : Reader σ) :
    ∃ purged, s.serve fs reading .purge = some (.done, purged) ∧
      (∀ g, g ∈ purged.system.held ↔ g ∈ s.system.held) ∧
      purged.system.world.unclosed = Identity.countDistinct (heldFiles fs given purged) := by
  obtain ⟨outcome, purged, hserve, hshares⟩ := h.serve reading .purge
  obtain ⟨hp, hshared, ht, ⟨r, hr⟩, -, hheld⟩ := h.rests.withPool
  obtain ⟨system, hpurge, ht', hr', hq⟩ := hr.purge (fs.environment reading) ht
  have hserve' : s.serve fs reading .purge = some (.done, ⟨system, some 0⟩) := by
    simp only [Process.serve, hp, call, ← hshared]
    exact congrArg (Option.map _) hpurge
  obtain ⟨rfl, rfl⟩ := Prod.mk.inj (Option.some.inj (hserve.symm.trans hserve'))
  have hshares : Shares fs given ⟨system, some 0⟩ := by simpa [Request.given] using hshares
  obtain ⟨pool, notes, hpool, -⟩ := World.isUp_iff.1 hr'.kempt.up
  have hrest := hr'.resting ht' hpool
  refine ⟨_, hserve', fun g => ?_, ?_⟩
  · rw [← hheld, ← List.contains_iff_mem, hr'.contains_iff ht', ← hr.contains_iff ht,
      List.contains_iff_mem]
  · rw [hrest.unclosed_eq hq hr'.kempt.home, hrest.size_eq_held hq, hshares.countDistinct_eq hr']

/-- Where the file system resolves what it has resolved to itself, a lone caller shares files by
canonical path, however it spells them. An identity is the identity of its own path; the handles
that are given are of the identities of the paths they were asked for; those that are held at once
are one stream just if the paths are resolved to the same path; and a purge leaves as many raw
handles open as canonical paths are held. -/
theorem openShared_shares_by_canonical_path (fs : FileSystem σ) (reading : Reader σ)
    (hreal : ∀ path target, fs.realpath path = .ok target → fs.realpath target = .ok target)
    (requests : List Request) :
    (∀ path X, fs.canonicalize path = .ok X → fs.canonicalize X.path = .ok X) ∧
    ∃ given s, ({} : Process σ).run fs reading requests = some (given, s) ∧
      (∀ path h, (path, h) ∈ given → ∃ X x, fs.canonicalize path = .ok X ∧
        s.system.world.wrappers[h]? = some x ∧ x.identity.Same X) ∧
      (∀ path path' h h', (path, h) ∈ given → (path', h') ∈ given → h ∈ s.system.held →
        h' ∈ s.system.held → (h = h' ↔ ∃ target target', fs.realpath path = .ok target ∧
          fs.realpath path' = .ok target' ∧ target.components = target'.components)) ∧
      ∃ purged, s.serve fs reading .purge = some (.done, purged) ∧
        (∀ h, h ∈ purged.system.held ↔ h ∈ s.system.held) ∧
        purged.system.world.unclosed = Identity.countDistinct (heldFiles fs given purged) := by
  obtain ⟨given, s, hrun, h⟩ := (Shares.start fs).run reading requests
  rw [List.nil_append] at h
  refine ⟨fun path X hX => ?_, given, s, hrun, fun path g hcall => ?_, ?_, h.purge reading⟩
  · have hX' := hreal path X.path (FileSystem.canonicalize_eq_ok_iff.1 hX).1
    exact FileSystem.canonicalize_of_realpath hX' hX
  · obtain ⟨X, Y, hX, hY, hsame⟩ := h.named path g hcall
    obtain ⟨x, hx, rfl⟩ := System.made_eq_some_iff.1 hY
    exact ⟨X, x, hX, hx, hsame⟩
  · exact fun path path' g g' hcall hcall' hg hg' => h.eq_iff hcall hcall' hg hg'

/-! ## A tree with a link -/

/-- Two files, and a link to one of them. -/
def linked : Except IoError FileTree := do
  let t ← FileTree.empty.change (.write (.ofString "/tmp/tree/r/a") [])
  let t ← t.change (.makeLink (.ofString "/tmp/tree/r/link") (Text.encode "a"))
  t.change (.write (.ofString "/tmp/tree/r/b") [])

/-- One file is opened by two spellings and through the link. All but one of these handles are
dropped, and the other file is opened, too. -/
def sharing : List Request :=
  [.openShared (.ofString "/tmp/tree//r/a"), .openShared (.ofString "link"),
    .openShared (.ofString "a"), .use 0 .drop, .openShared (.ofString "b"), .use 0 .drop]

/-- What is given for the paths. -/
def granted : List (Path × WrapperId) :=
  [(.ofString "/tmp/tree//r/a", 0), (.ofString "link", 0), (.ofString "a", 0), (.ofString "b", 1)]

/-- What the paths are resolved to. -/
def targets : List (Path × Path) :=
  [(.ofString "/tmp/tree//r/a", .ofString "/tmp/tree/r/a"),
    (.ofString "link", .ofString "/tmp/tree/r/a"), (.ofString "a", .ofString "/tmp/tree/r/a"),
    (.ofString "b", .ofString "/tmp/tree/r/b")]

/-- What is opened there. -/
def files : List (Path × OpenFile) :=
  [(.ofString "/tmp/tree/r/a", { node := 7 }), (.ofString "/tmp/tree/r/b", { node := 9 })]

/-- The requests depend on no other answers. -/
theorem run_sharing (fs : FileSystem OpenFile) (reading : Reader OpenFile) :
    (({} : Process OpenFile).run (fs.noting targets files) reading sharing).map
      (fun e => (e.1, e.2.system.held)) = some (granted, [1, 0]) := rfl

/-- The tree gives these answers, and the names of its base are settled. -/
theorem exists_linked : ∃ t, linked = .ok t ∧ t.BaseSettled ∧
    t.fileSystem.noting targets files = t.fileSystem := by
  refine ⟨_, by cbv, FileTree.baseSettled_of_settles (by cbv) (by cbv),
    FileSystem.noting_eq ?_ ?_⟩
  · simp only [targets, List.forall_mem_cons]
    refine ⟨by cbv, by cbv, by cbv, by cbv, by simp⟩
  · simp only [files, List.forall_mem_cons]
    refine ⟨⟨by cbv, by cbv⟩, ⟨by cbv, by cbv⟩, by simp⟩

theorem openShared_shares_by_canonical_path_linked : ∃ t, linked = .ok t ∧
    (∀ path target, t.fileSystem.realpath path = .ok target →
      t.fileSystem.realpath target = .ok target) ∧
    ∃ given s, ({} : Process OpenFile).run t.fileSystem t.read sharing = some (given, s) ∧
      given = granted ∧ s.system.held = [1, 0] ∧
      (∃ target target', t.fileSystem.realpath (.ofString "link") = .ok target ∧
        t.fileSystem.realpath (.ofString "/tmp/tree//r/a") = .ok target' ∧
        target.components = target'.components) ∧
      ∃ purged, s.serve t.fileSystem t.read .purge = some (.done, purged) ∧
        purged.system.world.unclosed
          = Identity.countDistinct (heldFiles t.fileSystem given purged) := by
  obtain ⟨t, ht, hbase, hnoted⟩ := exists_linked
  have hreal : ∀ path target, t.fileSystem.realpath path = .ok target →
      t.fileSystem.realpath target = .ok target :=
    fun path target => FileTree.realpath_realpath (.inr hbase)
  obtain ⟨-, given, s, hrun, -, hshared, purged, hpurge, -, hcount⟩ :=
    openShared_shares_by_canonical_path t.fileSystem t.read hreal sharing
  have houtcome := run_sharing t.fileSystem t.read
  rw [hnoted, hrun] at houtcome
  obtain ⟨rfl, hheld⟩ : given = _ ∧ s.system.held = [1, 0] :=
    Prod.mk.inj (Option.some.inj houtcome)
  refine ⟨t, ht, hreal, _, s, hrun, rfl, hheld, ?_, purged, hpurge, hcount⟩
  exact (hshared (.ofString "link") (.ofString "/tmp/tree//r/a") 0 0 (by decide +kernel)
    (by decide +kernel) (by simp [hheld]) (by simp [hheld])).1 rfl

end Process

end ReadPool
