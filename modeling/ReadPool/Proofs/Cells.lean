import Mathlib
import ReadPool.Proofs.Release
import ReadPool.Proofs.Solo

/-!
# Cells of a world

What a registry would say of a wrapper that is referenced, gathered from the wrapper, its stream and
the raw handle. Each change of a world has a lemma that says what it does to the cells.
-/

namespace ReadPool

namespace World

variable {w w' : World σ} {h : WrapperId} {x : Wrapper}

/-- What the registry would say of a wrapper that is referenced. -/
def cell? (w : World σ) (h : WrapperId) : Option (Cell σ) :=
  w.wrappers[h]?.bind fun x => x.stream.bind fun raw =>
    w.raws[raw]?.map fun r => ⟨x.identity, h, x.strong, r.state⟩

theorem cell?_congr (hw : w'.wrappers = w.wrappers)
    (hr : w'.raws.map RawHandle.state = w.raws.map RawHandle.state) (h : WrapperId) :
    w'.cell? h = w.cell? h := by
  have hraw (x : Wrapper) (raw : RawId) :
      w'.raws[raw]?.map (fun r => (⟨x.identity, h, x.strong, r.state⟩ : Cell σ))
        = w.raws[raw]?.map fun r => ⟨x.identity, h, x.strong, r.state⟩ := by
    have := congrArg (·[raw]?.map fun state => (⟨x.identity, h, x.strong, state⟩ : Cell σ)) hr
    simpa [Function.comp_def] using this
  simp only [cell?, hw, hraw]

theorem exists_of_cell? {c : Cell σ} (hc : w.cell? h = some c) :
    ∃ x raw r, w.wrappers[h]? = some x ∧ x.stream = some raw ∧ w.raws[raw]? = some r ∧
      c = ⟨x.identity, h, x.strong, r.state⟩ := by
  obtain ⟨x, hx, hc⟩ := Option.bind_eq_some_iff.1 hc
  obtain ⟨raw, hraw, hc⟩ := Option.bind_eq_some_iff.1 hc
  obtain ⟨r, hr, rfl⟩ := Option.map_eq_some_iff.1 hc
  exact ⟨x, raw, r, hx, hraw, hr, rfl⟩

theorem cell?_eq {raw : RawId} {r : RawHandle σ} (hx : w.wrappers[h]? = some x)
    (hraw : x.stream = some raw) (hr : w.raws[raw]? = some r) :
    w.cell? h = some ⟨x.identity, h, x.strong, r.state⟩ := by
  simp [cell?, hx, hraw, hr]

/-- The references of a wrapper are counted anew. -/
theorem cell?_recount (hx : w.wrappers[h]? = some x) (n : Nat → Nat) (k : WrapperId) :
    (w.updateWrapper h fun x => { x with strong := n x.strong }).cell? k = if k = h then
      (w.cell? h).map fun c => { c with references := n c.references } else w.cell? k := by
  rw [cell?, getElem?_updateWrapper hx]
  by_cases hk : k = h
  · subst hk
    rw [if_pos rfl, if_pos rfl, cell?, hx]
    cases hs : x.stream with
    | none => simp [hs]
    | some raw => cases hr : w.raws[raw]? <;> simp [hs, hr]
  · rw [if_neg (Ne.symm hk), if_neg hk]
    rfl

/-- The last reference to a wrapper goes. -/
theorem cell?_giveUp (hx : w.wrappers[h]? = some x) (k : WrapperId) :
    (w.updateWrapper h fun x => { x with strong := 0, stream := none }).cell? k
      = if k = h then none else w.cell? k := by
  rw [cell?, getElem?_updateWrapper hx]
  by_cases hk : k = h
  · rw [if_pos hk.symm, if_pos hk]
    rfl
  · rw [if_neg (Ne.symm hk), if_neg hk]
    rfl

/-- A read is seen through the wrapper that has the raw handle, and through no other. -/
theorem cell?_read {raw : RawId} (hx : w.wrappers[h]? = some x) (hraw : x.stream = some raw)
    (hinj : ∀ (k : WrapperId) (y : Wrapper), w.wrappers[k]? = some y → y.stream = some raw → k = h)
    (f : σ → σ) (k : WrapperId) :
    (w.updateRaw raw fun r => { r with state := f r.state }).cell? k = if k = h then
      (w.cell? h).map fun c => { c with state := f c.state } else w.cell? k := by
  rw [cell?, wrappers_updateRaw]
  by_cases hk : k = h
  · subst hk
    rw [if_pos rfl, cell?, hx]
    cases hr : w.raws[raw]? <;> simp [hraw, updateRaw, hr]
  · rw [if_neg hk, cell?]
    cases hy : w.wrappers[k]? with
    | none => rfl
    | some y =>
      cases hs : y.stream with
      | none => simp [hs]
      | some raw' =>
        have hne : raw ≠ raw' := by
          rintro rfl
          exact hk (hinj k y hy hs)
        simp [hs, updateRaw, hne]

theorem readThrough_eq {raw : RawId} {r : RawHandle σ} (hx : w.wrappers[h]? = some x)
    (hraw : x.stream = some raw) (hr : w.raws[raw]? = some r) {α : Type*} (f : σ → α × σ) :
    w.readThrough h f
      = some ((f r.state).1, w.updateRaw raw fun r => { r with state := (f r.state).2 }) := by
  rw [readThrough, hx, Option.bind_some, hraw, Option.bind_some, hr, Option.map_some]

theorem cell?_grow (hlt : ∀ raw ∈ w.streams, raw < w.raws.length) (X : Identity) (state : σ)
    (entry : Entry) (slots : Slots) (k : WrapperId) :
    (w.grow X state entry slots).cell? k = if k = w.wrappers.length then
      some ⟨X, k, 1, state⟩ else w.cell? k := by
  have hraws : (w.grow X state entry slots).raws = w.raws ++ [{ identity := X, state }] := rfl
  rw [cell?, getElem?_grow, hraws]
  by_cases hk : k = w.wrappers.length
  · rw [if_pos hk, if_pos hk]
    simp
  · rw [if_neg hk, if_neg hk, cell?]
    cases hx : w.wrappers[k]? with
    | none => rfl
    | some x =>
      cases hs : x.stream with
      | none => simp [hs]
      | some raw =>
        have hr := hlt raw (mem_streams.2 ⟨k, x, hx, hs⟩)
        simp [hs, List.getElem?_append_left hr]

end World

namespace Scene

/-- A wrapper that is referenced has its cell. -/
theorem Valid.exists_cell {sc : Scene σ} (hv : Valid sc) {h : WrapperId}
    (hs : 0 < sc.world.strong h) :
    ∃ x raw r, sc.world.wrappers[h]? = some x ∧ x.stream = some raw ∧
      sc.world.raws[raw]? = some r ∧
      sc.world.cell? h = some ⟨x.identity, h, x.strong, r.state⟩ := by
  obtain ⟨x, raw, r, hx, hraw, hr, -⟩ := hv.exists_open_stream hs
  exact ⟨x, raw, r, hx, hraw, hr, World.cell?_eq hx hraw hr⟩

theorem Valid.strong_pos_of_cell {sc : Scene σ} (hv : Valid sc) {h : WrapperId} {x : Wrapper}
    (hx : sc.world.wrappers[h]? = some x) {raw : RawId} (hraw : x.stream = some raw) :
    0 < x.strong :=
  (hv.referenced.stream_isSome h x hx).1 (by simp [hraw])

end Scene

end ReadPool
