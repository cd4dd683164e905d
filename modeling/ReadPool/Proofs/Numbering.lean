import Mathlib
import ReadPool.Proofs.Ownership

/-!
# Numbers of opens

A pool numbers its successful opens in turn, so a wrapper's entry counts the wrappers that its pool
made before it. The numbers are words: as long as there are fewer opens than words, the entry tells
the wrappers of one pool apart.
-/

namespace ReadPool

/-- The event is a successful open by a pool. -/
def Event.isOpen (p : PoolId) : Event → Bool
  | opened q _ => q = p
  | _ => false

/-- How many opens of a pool have been successful. -/
def opensOf (p : PoolId) (events : List Event) : Nat := events.countP (Event.isOpen p)

theorem count_opens (p : PoolId) (events : List Event) :
    ((collect Event.opens events).map Prod.fst).count p = opensOf p events := by
  induction events with
  | nil => rfl
  | cons ev events ih =>
    rw [collect_coe_cons, Multiset.map_add, Multiset.count_add, ih, opensOf, opensOf,
      List.countP_cons, add_comm]
    cases ev with
    | opened q raw => simp [Event.opens, Event.isOpen, Multiset.count_singleton, eq_comm]
    | _ => simp [Event.opens, Event.isOpen]

/-- A place that holds `p` comes between two heads of a list that differ in how many `p` they hold. -/
theorem count_take_lt {l : List PoolId} {i j : Nat} {p : PoolId} (hij : i < j)
    (hi : l[i]? = some p) : (l.take i).count p < (l.take j).count p := by
  have hsub : (l.take (i + 1)).Sublist (l.take j) := List.take_sublist_take_left hij
  have hle := hsub.count_le p
  rw [List.take_add_one, hi, List.count_append] at hle
  simp at hle
  omega

namespace World

variable {w : World σ}

/-- The pools that the wrappers come from, one for each wrapper. -/
def homes (w : World σ) : List PoolId := w.wrappers.map Wrapper.home

theorem homes_updateWrapper_of_eq (h) (f : Wrapper → Wrapper) (hf : ∀ x, (f x).home = x.home) :
    (w.updateWrapper h f).homes = w.homes := by
  apply List.ext_getElem?
  intro k
  simp only [homes, updateWrapper, List.getElem?_map, List.getElem?_modify]
  cases w.wrappers[k]? with
  | none => rfl
  | some x => by_cases hk : h = k <;> simp [hk, hf]

theorem homes_retain (h) : (w.retain h).homes = w.homes := homes_updateWrapper_of_eq h _ fun _ => rfl

theorem homes_addWrapper (p X e r) : (w.addWrapper p X e r).1.homes = w.homes ++ [p] := by
  simp [homes, wrappers_addWrapper]

/-- The entry of a pool's next open. -/
def next? (w : World σ) (p : PoolId) : Option Entry := w.pools[p]?.map Pool.next

theorem next?_updatePool_of_eq (p) (f : Pool → Pool) (hf : ∀ pool, (f pool).next = pool.next) (q) :
    (w.updatePool p f).next? q = w.next? q := by
  rw [next?, next?, getElem?_updatePool]
  split <;> cases w.pools[q]? <;> simp [hf]

end World

namespace Scene

structure Numbered (sc : Scene σ) : Prop where
  next_eq : ∀ (p : PoolId) (next : Entry), sc.world.next? p = some next →
    next = .ofNat (sc.world.homes.count p)
  entry_eq : ∀ (h : WrapperId) (x : Wrapper), sc.world.wrappers[h]? = some x →
    x.entry = .ofNat ((sc.world.homes.take h).count x.home)
  homes_lt : ∀ p ∈ sc.world.homes, p < sc.world.pools.length
  homes_eq : (collect Event.wraps sc.history).map Prod.fst = sc.world.homes

namespace Numbered

variable {sc sc' : Scene σ}

/-- What the numbers depend on. -/
theorem congr (hi : Numbered sc) (hs : Step sc sc')
    (hh : sc'.world.homes = sc.world.homes) (hn : ∀ q, sc'.world.next? q = sc.world.next? q)
    (hl : sc'.world.pools.length = sc.world.pools.length)
    (hw : collect Event.wraps sc'.history = collect Event.wraps sc.history) : Numbered sc' where
  next_eq p next h := hh ▸ hi.next_eq p next (hn p ▸ h)
  entry_eq h x' hx' := by
    have hlt : h < sc.world.wrappers.length := by
      have hlen := congrArg List.length hh
      simp only [World.homes, List.length_map] at hlen
      exact hlen ▸ (List.getElem?_eq_some_iff.1 hx').1
    obtain ⟨x'', hx'', hlater⟩ := hs.later (List.getElem?_eq_getElem hlt)
    obtain rfl : x'' = x' := Option.some.inj (hx''.symm.trans hx')
    rw [hlater.entry, hlater.home, hh]
    exact hi.entry_eq h _ (List.getElem?_eq_getElem hlt)
  homes_lt p hp := hl ▸ hi.homes_lt p (hh ▸ hp)
  homes_eq := by rw [hw, hh, hi.homes_eq]

theorem newPool {w : World σ} {F : Multiset Frame} {H : Multiset WrapperId} {E : List Event}
    (hi : Numbered ⟨w, F, H, E⟩) (config : Config) : Numbered ⟨(w.addPool config).1, F, H, E⟩ := by
  refine ⟨?_, hi.entry_eq, ?_, hi.homes_eq⟩
  · intro p next hp
    simp only [World.next?, World.getElem?_addPool] at hp
    split at hp
    · next hpl =>
      -- Every wrapper comes from a pool that was there.
      have hz : w.homes.count p = 0 := by
        apply List.count_eq_zero.2
        intro hm
        exact Nat.lt_irrefl _ (hpl ▸ hi.homes_lt p hm)
      cases hp
      change (0 : Entry) = .ofNat (w.homes.count p)
      rw [hz]
      rfl
    · exact hi.next_eq p next hp
  · intro p hp
    exact Nat.lt_of_lt_of_le (hi.homes_lt p hp) (by simp [World.addPool])

/-- The new wrapper takes the number, and the pool's count of wrappers grows with the next one. -/
theorem wrap {w : World σ} {F F' : Multiset Frame} {H : Multiset WrapperId} {E : List Event}
    {p : PoolId} {pool : Pool} (hi : Numbered ⟨w, F, H, E⟩) (hp : w.pools[p]? = some pool)
    (X : Identity) (raw : RawId) :
    Numbered ⟨((w.updatePool p fun pool => { pool with next := pool.next + 1 }).addWrapper
        p X pool.next raw).1, F', H, .wrapped p w.wrappers.length raw :: E⟩ := by
  have hn : pool.next = .ofNat (w.homes.count p) := hi.next_eq p pool.next (by simp [World.next?, hp])
  have hhomes : ((w.updatePool p fun pool => { pool with next := pool.next + 1 }).addWrapper
      p X pool.next raw).1.homes = w.homes ++ [p] := World.homes_addWrapper p X pool.next raw
  refine ⟨?_, ?_, ?_, ?_⟩
  · intro q next hq
    simp only [World.next?, World.pools_addWrapper, World.getElem?_updatePool] at hq
    rw [hhomes, List.count_append]
    by_cases hpq : p = q
    · subst hpq
      simp only [if_true, hp, Option.map_some, Option.some.injEq] at hq
      rw [← hq, hn]
      simp
    · rw [if_neg hpq] at hq
      have hz : [p].count q = 0 := List.count_eq_zero.2 (by simpa using Ne.symm hpq)
      rw [hz, add_zero]
      exact hi.next_eq q next hq
  · intro h x hx
    rw [hhomes]
    rw [World.getElem?_addWrapper] at hx
    split at hx
    · -- All the wrappers that were there come before the new one.
      next hh =>
      cases hx
      have hl : h = w.homes.length := by simpa [World.homes] using hh
      rw [hl, List.take_left]
      exact hn
    · next hh =>
      have hlt : h < w.wrappers.length := (List.getElem?_eq_some_iff.1 hx).1
      rw [List.take_append_of_le_length (by simpa [World.homes] using hlt.le)]
      exact hi.entry_eq h x hx
  · intro q hq
    rw [hhomes] at hq
    simp only [World.pools_addWrapper, World.length_pools_updatePool]
    rcases List.mem_append.1 hq with hq | hq
    · exact hi.homes_lt q hq
    · rw [List.mem_singleton.1 hq]
      exact (List.getElem?_eq_some_iff.1 hp).1
  · rw [hhomes, ← Multiset.coe_add, ← hi.homes_eq, collect_coe_cons, Multiset.map_add, add_comm]
    rfl

theorem step (hi : Numbered sc) (hs : Step sc sc') : Numbered sc' := by
  have hst := hs
  cases hs with
  | newPool => exact hi.newPool _
  | wrap hp => exact hi.wrap hp _ _
  | clone => exact hi.congr hst (World.homes_retain _) (fun _ => rfl) rfl rfl
  | hit => exact hi.congr hst (World.homes_retain _) (fun _ => rfl) rfl (by simp [Event.wraps])
  | receive =>
    exact hi.congr hst rfl (World.next?_updatePool_of_eq _ _ fun _ => rfl) (by simp) rfl
  | evict =>
    exact hi.congr hst rfl (World.next?_updatePool_of_eq _ _ fun _ => rfl) (by simp) rfl
  | publish =>
    exact hi.congr hst rfl (World.next?_updatePool_of_eq _ _ fun _ => rfl) (by simp)
      (by simp [Event.wraps])
  | post =>
    exact hi.congr hst rfl (World.next?_updatePool_of_eq _ _ fun _ => rfl) (by simp)
      (by simp [Event.wraps])
  | disconnect =>
    exact hi.congr hst rfl (World.next?_updatePool_of_eq _ _ fun _ => rfl) (by simp)
      (by simp [Event.wraps])
  | discard =>
    exact hi.congr hst (World.homes_updateWrapper_of_eq _ _ fun _ => rfl) (fun _ => rfl) rfl rfl
  | dropShared =>
    exact hi.congr hst (World.homes_updateWrapper_of_eq _ _ fun _ => rfl) (fun _ => rfl) rfl rfl
  | dropLast =>
    exact hi.congr hst (World.homes_updateWrapper_of_eq _ _ fun _ => rfl) (fun _ => rfl) rfl rfl
  | _ => exact hi.congr hst rfl (fun _ => rfl) rfl (by simp [Event.wraps])

/-- While the numbers last, the entry tells the wrappers of a pool apart. -/
theorem entry_inj (hi : Numbered sc) (ho : Owned sc) {p : PoolId}
    (hp : opensOf p sc.history < 2 ^ 64) {h k : WrapperId} {x y : Wrapper}
    (hx : sc.world.wrappers[h]? = some x) (hy : sc.world.wrappers[k]? = some y)
    (hxp : x.home = p) (hyp : y.home = p) (he : x.entry = y.entry) : h = k := by
  have hle : sc.world.homes.count p ≤ opensOf p sc.history := by
    rw [← count_opens, ← ho.wraps_eq, Multiset.map_add, hi.homes_eq]
    simp
  -- Below the number of words, an entry is the count that it stands for.
  have hcount : (sc.world.homes.take h).count p = (sc.world.homes.take k).count p := by
    have hbound (n) : (sc.world.homes.take n).count p < 2 ^ 64 :=
      ((List.take_sublist n _).count_le p).trans_lt (hle.trans_lt hp)
    rw [hi.entry_eq h x hx, hi.entry_eq k y hy, hxp, hyp] at he
    have := congrArg UInt64.toNat he
    rwa [UInt64.toNat_ofNat_of_lt' (hbound h), UInt64.toNat_ofNat_of_lt' (hbound k)] at this
  have hhome {n : WrapperId} {z : Wrapper} (hz : sc.world.wrappers[n]? = some z) (hzp : z.home = p) :
      sc.world.homes[n]? = some p := by simp [World.homes, hz, hzp]
  rcases Nat.lt_trichotomy h k with hlt | heq | hgt
  · exact absurd hcount (Nat.ne_of_lt (count_take_lt hlt (hhome hx hxp)))
  · exact heq
  · exact absurd hcount (Nat.ne_of_gt (count_take_lt hgt (hhome hy hyp)))

end Numbered

end Scene

end ReadPool
