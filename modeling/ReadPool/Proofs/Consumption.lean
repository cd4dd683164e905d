import Mathlib
import ReadPool.Stream.Composite

/-!
# What is taken from a stream

A stream is a sequence of signals, endless or not: its bytes, and between them the failures and the
empty reads that its script lays down. A read takes a beginning of that sequence and leaves the rest
(`Stream.exists_taken`), so what a loop of reads takes is a beginning too, and `Gathers.taken` says
which: bytes, failures that ask to be tried again, and at the end what stopped the loop.

`Gathers` is the loop without a bound on the number of its reads. That it has an outcome is that the
loop ends; `Stream.exists_gathers` has the bound that is always enough.
-/

namespace ReadPool

open Stream' (Seq)

/-! ## Signals -/

/-- What a stream can answer with, one at a time. -/
inductive Signal where
  | byte (b : UInt8)
  | failure (error : IoError)
  /-- An empty read, after which the stream may go on. -/
  | pause
deriving DecidableEq, Repr

namespace Signal

def byte? : Signal → Option UInt8
  | byte b => some b
  | _ => none

def received (signals : List Signal) : List UInt8 := signals.filterMap byte?

/-- Nothing but bytes, and failures that ask to be tried again. -/
def Passed (signals : List Signal) : Prop :=
  ∀ x ∈ signals, x ≠ pause ∧ ∀ e, x = failure e → e.kind = .interrupted

section

variable {a b : List Signal} {bytes : List UInt8} {e : IoError}

@[simp] theorem received_append : received (a ++ b) = received a ++ received b :=
  List.filterMap_append

@[simp] theorem received_failure : received [failure e] = [] := rfl

@[simp] theorem received_pause : received [pause] = [] := rfl

@[simp] theorem received_byte : received (bytes.map byte) = bytes := by
  unfold received
  rw [List.filterMap_map]
  exact List.filterMap_some

theorem passed_nil : Passed [] := by
  simp [Passed]

theorem passed_byte : Passed (bytes.map byte) := by
  simp [Passed]

theorem passed_failure (h : e.kind = .interrupted) : Passed [failure e] := by
  simp [Passed, h]

theorem Passed.append (ha : Passed a) (hb : Passed b) : Passed (a ++ b) := fun x hx =>
  (List.mem_append.1 hx).elim (ha x) (hb x)

end

end Signal

namespace StreamEvent

def signals : StreamEvent → List Signal
  | data bytes => if bytes = [] then [.pause] else bytes.map .byte
  | fail e => [.failure e]
  | eof => [.pause]

def bytes : StreamEvent → List UInt8
  | data bytes => bytes
  | _ => []

theorem signals_data {bytes : List UInt8} (h : bytes ≠ []) :
    (data bytes).signals = bytes.map .byte := if_neg h

@[simp] theorem received_signals (event : StreamEvent) :
    Signal.received event.signals = event.bytes := by
  cases event with
  | data bytes =>
    by_cases h : bytes = []
    · subst h
      rfl
    · rw [signals_data h, Signal.received_byte]
      rfl
  | fail e => rfl
  | eof => rfl

end StreamEvent

namespace Source

def signals : Source → Seq Signal
  | counting b => Seq.ofStream ((Stream'.iterate (· + 1) b).map .byte)
  | repeating b => Seq.ofStream ((Stream'.const b).map .byte)
  | script events => Seq.ofList (events.flatMap StreamEvent.signals)

/-- The bytes alone. -/
def data : Source → Seq UInt8
  | counting b => Seq.ofStream (Stream'.iterate (· + 1) b)
  | repeating b => Seq.ofStream (Stream'.const b)
  | script events => Seq.ofList (events.flatMap StreamEvent.bytes)

end Source

namespace Stream

variable {s s₁ s₂ : Stream} {taken taken₁ taken₂ : List Signal}

/-- `taken` is a beginning of what the first stream has to give, and the second has the rest. -/
structure Spends (s : Stream) (taken : List Signal) (rest : Stream) : Prop where
  signals : s.source.signals = (Seq.ofList taken).append rest.source.signals
  data : s.source.data = (Seq.ofList (Signal.received taken)).append rest.source.data
  chunk : rest.chunk = s.chunk

/-- Every read of it is empty, and changes nothing. -/
def IsDry (s : Stream) : Prop := s.chunk = some 0 ∨ s.source.signals = Seq.nil

namespace Spends

theorem refl (s : Stream) : s.Spends [] s :=
  ⟨(Seq.nil_append _).symm, (Seq.nil_append _).symm, rfl⟩

theorem trans (h₁ : s.Spends taken₁ s₁) (h₂ : s₁.Spends taken₂ s₂) :
    s.Spends (taken₁ ++ taken₂) s₂ := by
  refine ⟨?_, ?_, h₂.chunk.trans h₁.chunk⟩
  · rw [h₁.signals, h₂.signals, Seq.ofList_append, Seq.append_assoc]
  · rw [h₁.data, h₂.data, Signal.received_append, Seq.ofList_append, Seq.append_assoc]

/-- An event is over. -/
theorem ofEvent (event : StreamEvent) (events : List StreamEvent) (chunk : Option Nat) :
    Spends ⟨.script (event :: events), chunk⟩ event.signals ⟨.script events, chunk⟩ := by
  refine ⟨Seq.ofList_append _ _, ?_, rfl⟩
  rw [StreamEvent.received_signals]
  exact Seq.ofList_append _ _

/-- Bytes that come from the head of both sequences. -/
theorem ofBytes {bytes : List UInt8}
    (hs : s.source.signals = (Seq.ofList (bytes.map Signal.byte)).append s₁.source.signals)
    (hd : s.source.data = (Seq.ofList bytes).append s₁.source.data) (hc : s₁.chunk = s.chunk) :
    s.Spends (bytes.map .byte) s₁ :=
  ⟨hs, by rw [hd, Signal.received_byte], hc⟩

end Spends

end Stream

/-! ## One read -/

theorem length_countFrom (b : UInt8) (n : Nat) : (countFrom b n).length = n := by
  induction n generalizing b with
  | zero => rfl
  | succ n ih => rw [countFrom, List.length_cons, ih]

/-- Counting goes on where the bytes end. -/
theorem countFrom_append (b : UInt8) (n : Nat) :
    countFrom b n ++ₛ Stream'.iterate (· + 1) (b + UInt8.ofNat n)
      = Stream'.iterate (· + 1) b := by
  induction n generalizing b with
  | zero => simp [countFrom]
  | succ n ih =>
    have hnext : b + UInt8.ofNat (n + 1) = b + 1 + UInt8.ofNat n := by
      rw [UInt8.ofNat_add, add_comm (UInt8.ofNat n), ← add_assoc]
      rfl
    rw [countFrom, Stream'.cons_append_stream, hnext, ih (b + 1)]
    exact (Stream'.iterate_eq (· + 1) b).symm

theorem replicate_append (b : UInt8) (n : Nat) :
    List.replicate n b ++ₛ Stream'.const b = Stream'.const b := by
  induction n with
  | zero => rfl
  | succ n ih =>
    rw [List.replicate_succ, Stream'.cons_append_stream, ih]
    exact (Stream'.const_eq b).symm

/-- What one read of `n` bytes takes, by what it gives. -/
inductive ReadTakes (n : Nat) (rest : Stream) : Except IoError (List UInt8) → List Signal → Prop
  | bytes {bytes : List UInt8} (hne : bytes ≠ []) (hle : bytes.length ≤ n) :
    ReadTakes n rest (.ok bytes) (bytes.map .byte)
  | pause (hn : n ≠ 0) : ReadTakes n rest (.ok []) [.pause]
  | nothing (hn : n = 0 ∨ rest.IsDry) : ReadTakes n rest (.ok []) []
  | failure (hn : n ≠ 0) (e : IoError) : ReadTakes n rest (.error e) [.failure e]

theorem ReadTakes.length_le {n : Nat} {rest : Stream} {result : Except IoError (List UInt8)}
    {taken : List Signal} (h : ReadTakes n rest result taken) :
    (Signal.received taken).length ≤ n := by
  cases h with
  | bytes hne hle => simpa using hle
  | pause => exact Nat.zero_le n
  | nothing => exact Nat.zero_le n
  | failure => exact Nat.zero_le n

namespace Stream

variable {s s' : Stream} {n : Nat} {result : Except IoError (List UInt8)}

theorem effective_le (s : Stream) (n : Nat) : s.effective n ≤ n := by
  unfold effective
  split
  · exact le_rfl
  · exact Nat.min_le_right _ n

theorem effective_eq_zero (h : s.effective n = 0) : n = 0 ∨ s.IsDry := by
  unfold effective at h
  split at h
  · exact .inl h
  · next m hm =>
    rcases Nat.min_eq_zero_iff.1 h with rfl | hn
    · exact .inr (.inl hm)
    · exact .inl hn

/-- An event gives its signals, or the first of them and leaves the others. -/
theorem exists_taken_script (events : List StreamEvent) (chunk : Option Nat) {m : Nat}
    (hm : m ≠ 0) (hle : m ≤ n) :
    ∃ taken, ReadTakes n ⟨((Source.script events).read m).2, chunk⟩
        ((Source.script events).read m).1 taken ∧
      (⟨.script events, chunk⟩ : Stream).Spends taken
        ⟨((Source.script events).read m).2, chunk⟩ := by
  have hn : n ≠ 0 := by omega
  cases events with
  | nil => exact ⟨[], .nothing (.inr (.inr rfl)), .refl _⟩
  | cons event events =>
    cases event with
    | fail e => exact ⟨[.failure e], .failure hn e, .ofEvent (.fail e) events chunk⟩
    | eof => exact ⟨[.pause], .pause hn, .ofEvent .eof events chunk⟩
    | data bytes =>
      by_cases hall : bytes.length ≤ m
      · rw [Source.read, if_pos hall]
        have hspends := Spends.ofEvent (.data bytes) events chunk
        by_cases hempty : bytes = []
        · subst hempty
          exact ⟨[.pause], .pause hn, hspends⟩
        · rw [StreamEvent.signals_data hempty] at hspends
          exact ⟨bytes.map .byte, .bytes hempty (hall.trans hle), hspends⟩
      · -- Something is left of the event, so it is not over.
        have hne : bytes ≠ [] := List.ne_nil_of_length_pos (by omega)
        have hdrop : bytes.drop m ≠ [] := fun h => hall (List.drop_eq_nil_iff.1 h)
        rw [Source.read, if_neg hall]
        refine ⟨(bytes.take m).map .byte, .bytes ?_ ((List.length_take_le m bytes).trans hle),
          .ofBytes ?_ ?_ rfl⟩
        · exact fun h => (List.take_eq_nil_iff.1 h).elim hm hne
        · rw [Source.signals, Source.signals, ← Seq.ofList_append, List.flatMap_cons,
            List.flatMap_cons, StreamEvent.signals_data hne, StreamEvent.signals_data hdrop,
            ← List.append_assoc, ← List.map_append, List.take_append_drop]
        · rw [Source.data, Source.data, ← Seq.ofList_append, List.flatMap_cons,
            List.flatMap_cons, StreamEvent.bytes, StreamEvent.bytes, ← List.append_assoc,
            List.take_append_drop]

/-- A read takes the head of what there is, if it takes anything. -/
theorem exists_taken (h : s.read n = (result, s')) :
    ∃ taken, ReadTakes n s' result taken ∧ s.Spends taken s' := by
  unfold read at h
  by_cases h0 : s.effective n = 0
  · rw [if_pos h0] at h
    cases h
    exact ⟨[], .nothing (effective_eq_zero h0), .refl s⟩
  · rw [if_neg h0] at h
    cases h
    have hle := s.effective_le n
    generalize s.effective n = m at h0 hle ⊢
    obtain ⟨source, chunk⟩ := s
    cases source with
    | counting b =>
      refine ⟨(countFrom b m).map .byte, .bytes ?_ ?_, .ofBytes ?_ ?_ rfl⟩
      · exact List.ne_nil_of_length_pos (by rw [length_countFrom]; omega)
      · exact (length_countFrom b m).trans_le hle
      · simp only [Source.signals, ← Seq.ofStream_append,
          ← Stream'.map_append_stream, countFrom_append]
      · simp only [Source.data, ← Seq.ofStream_append, countFrom_append]
    | repeating b =>
      refine ⟨(List.replicate m b).map .byte, .bytes ?_ ?_, .ofBytes ?_ ?_ rfl⟩
      · exact List.ne_nil_of_length_pos (by rw [List.length_replicate]; omega)
      · exact List.length_replicate.trans_le hle
      · simp only [Source.signals, ← Seq.ofStream_append,
          ← Stream'.map_append_stream, replicate_append]
      · simp only [Source.data, ← Seq.ofStream_append, replicate_append]
    | script events => exact exists_taken_script events chunk h0 hle

end Stream

/-! ## Loops -/

/-- The outcome of a loop that reads until `missing` bytes have come. -/
inductive Gathers (rd : Reader σ) : Nat → σ → Gathered σ → Prop
  | full {s : σ} : Gathers rd 0 s ⟨[], none, s⟩
  | stopped {missing : Nat} {s s' : σ} (hm : missing ≠ 0) (hread : rd missing s = (.ok [], s')) :
    Gathers rd missing s ⟨[], none, s'⟩
  | more {missing : Nat} {s s' : σ} {bytes : List UInt8} {g : Gathered σ} (hm : missing ≠ 0)
    (hread : rd missing s = (.ok bytes, s')) (hne : bytes ≠ [])
    (hg : Gathers rd (missing - bytes.length) s' g) :
    Gathers rd missing s { g with data := bytes ++ g.data }
  | again {missing : Nat} {s s' : σ} {e : IoError} {g : Gathered σ} (hm : missing ≠ 0)
    (hread : rd missing s = (.error e, s')) (he : e.kind = .interrupted)
    (hg : Gathers rd missing s' g) : Gathers rd missing s g
  | failed {missing : Nat} {s s' : σ} {e : IoError} (hm : missing ≠ 0)
    (hread : rd missing s = (.error e, s')) (he : e.kind ≠ .interrupted) :
    Gathers rd missing s ⟨[], some e, s'⟩

/-- What a loop takes that wants `size` bytes, by the error that ended it. -/
inductive LoopTakes (size : Nat) (rest : Stream) : Option IoError → List Signal → Prop
  | full {passed : List Signal} (hp : Signal.Passed passed)
    (hsize : (Signal.received passed).length = size) : LoopTakes size rest none passed
  | paused {passed : List Signal} (hp : Signal.Passed passed)
    (hsize : (Signal.received passed).length < size) :
    LoopTakes size rest none (passed ++ [.pause])
  | dry {passed : List Signal} (hp : Signal.Passed passed)
    (hsize : (Signal.received passed).length < size) (hdry : rest.IsDry) :
    LoopTakes size rest none passed
  | failed {passed : List Signal} {e : IoError} (hp : Signal.Passed passed)
    (hsize : (Signal.received passed).length < size) (he : e.kind ≠ .interrupted) :
    LoopTakes size rest (some e) (passed ++ [.failure e])

theorem LoopTakes.length_le {size : Nat} {rest : Stream} {error : Option IoError}
    {taken : List Signal} (h : LoopTakes size rest error taken) :
    (Signal.received taken).length ≤ size := by
  cases h with
  | full hp hsize => exact hsize.le
  | paused hp hsize => simpa using hsize.le
  | dry hp hsize => exact hsize.le
  | failed hp hsize => simpa using hsize.le

/-- What was let pass before comes first. -/
theorem LoopTakes.after {size : Nat} {rest : Stream} {error : Option IoError}
    {first taken : List Signal} (hf : Signal.Passed first)
    (h : LoopTakes size rest error taken) :
    LoopTakes ((Signal.received first).length + size) rest error (first ++ taken) := by
  cases h with
  | full hp hsize => exact .full (hf.append hp) (by simp [hsize])
  | paused hp hsize =>
    rw [← List.append_assoc]
    exact .paused (hf.append hp) (by simpa using hsize)
  | dry hp hsize hdry => exact .dry (hf.append hp) (by simpa using hsize) hdry
  | failed hp hsize he =>
    rw [← List.append_assoc]
    exact .failed (hf.append hp) (by simpa using hsize) he

/-- A loop takes a beginning of what the stream has to give, and keeps all bytes of it. -/
theorem Gathers.taken {missing : Nat} {s : Stream} {g : Gathered Stream}
    (h : Gathers Stream.read missing s g) :
    ∃ taken, LoopTakes missing g.state g.error taken ∧ Signal.received taken = g.data ∧
      s.Spends taken g.state := by
  induction h with
  | full => exact ⟨[], .full Signal.passed_nil rfl, rfl, .refl _⟩
  | stopped hm hread =>
    obtain ⟨taken, htakes, hspends⟩ := Stream.exists_taken hread
    have hpos := Nat.pos_of_ne_zero hm
    cases htakes with
    | bytes hne => exact (hne rfl).elim
    | pause => exact ⟨_, .paused Signal.passed_nil hpos, rfl, hspends⟩
    | nothing hdry => exact ⟨_, .dry Signal.passed_nil hpos (hdry.resolve_left hm), rfl, hspends⟩
  | @more missing s s' bytes g hm hread hne hg ih =>
    obtain ⟨first, htakes, hspends⟩ := Stream.exists_taken hread
    obtain ⟨taken, hloop, hdata, hrest⟩ := ih
    cases htakes with
    | bytes _ hle =>
      have hpassed : Signal.Passed (bytes.map Signal.byte) := Signal.passed_byte
      have hloop := hloop.after hpassed
      rw [Signal.received_byte, Nat.add_sub_cancel' hle] at hloop
      refine ⟨_, hloop, ?_, hspends.trans hrest⟩
      rw [Signal.received_append, Signal.received_byte, hdata]
    | pause => exact (hne rfl).elim
    | nothing => exact (hne rfl).elim
  | @again missing s s' e g hm hread he hg ih =>
    obtain ⟨first, htakes, hspends⟩ := Stream.exists_taken hread
    obtain ⟨taken, hloop, hdata, hrest⟩ := ih
    cases htakes with
    | failure =>
      have hloop := hloop.after (Signal.passed_failure he)
      rw [Signal.received_failure, List.length_nil, Nat.zero_add] at hloop
      exact ⟨_, hloop, by rw [Signal.received_append, hdata]; rfl, hspends.trans hrest⟩
  | failed hm hread he =>
    obtain ⟨taken, htakes, hspends⟩ := Stream.exists_taken hread
    cases htakes with
    | failure =>
      exact ⟨_, .failed Signal.passed_nil (Nat.pos_of_ne_zero hm) he, rfl, hspends⟩

/-! ## The bound on the reads -/

namespace Stream

variable {s s' : Stream} {n : Nat} {result : Except IoError (List UInt8)}

theorem patience_script (events : List StreamEvent) (chunk : Option Nat) :
    patience ⟨.script events, chunk⟩ = events.length := rfl

/-- No read adds to the patience, and a failure is over once it has been given. -/
theorem patience_read (h : s.read n = (result, s')) :
    s'.patience + (if result.isOk then 0 else 1) ≤ s.patience := by
  unfold read at h
  split at h
  · cases h
    exact le_rfl
  · cases h
    generalize s.effective n = m
    obtain ⟨source, chunk⟩ := s
    cases source with
    | counting b => exact le_rfl
    | repeating b => exact le_rfl
    | script events =>
      rw [patience_script]
      cases events with
      | nil => exact le_rfl
      | cons event events =>
        rw [List.length_cons]
        cases event with
        | fail e => exact le_rfl
        | eof => exact Nat.le_succ _
        | data bytes =>
          rcases Nat.lt_or_ge m bytes.length with hpart | hall
          · simp [Nat.not_le.2 hpart, Except.isOk, Except.toBool, patience_script]
          · simp [hall, Except.isOk, Except.toBool, patience_script]

/-- A read of the loop gives a byte, uses up an event or ends the loop. -/
theorem exists_gathers {fuel missing : Nat} (hfuel : missing + s.patience < fuel)
    (back : List UInt8) :
    ∃ g, Gathers read missing s g ∧
      gatherLoop read fuel missing back s = { g with data := back.reverse ++ g.data } := by
  induction fuel generalizing missing s back with
  | zero => omega
  | succ fuel ih =>
    rw [gatherLoop]
    by_cases hm : missing = 0
    · subst hm
      exact ⟨_, .full, by simp⟩
    · rw [if_neg hm]
      rcases hread : s.read missing with ⟨e | bytes, s'⟩
      · have hlt : s'.patience + 1 ≤ s.patience := patience_read hread
        by_cases he : e.kind = .interrupted
        · obtain ⟨g, hg, hloop⟩ := ih (s := s') (by omega : missing + s'.patience < fuel) back
          exact ⟨g, .again hm hread he hg, by simpa [IoError.isInterrupted, he] using hloop⟩
        · exact ⟨_, .failed hm hread he, by simp [IoError.isInterrupted, he]⟩
      · have hle : s'.patience ≤ s.patience := patience_read hread
        cases bytes with
        | nil => exact ⟨_, .stopped hm hread, by simp⟩
        | cons b bytes =>
          have hfuel' : missing - (b :: bytes).length + s'.patience < fuel := by
            rw [List.length_cons]
            omega
          obtain ⟨g, hg, hloop⟩ := ih hfuel' ((b :: bytes).reverseAux back)
          refine ⟨_, .more hm hread (List.cons_ne_nil b bytes) hg, ?_⟩
          simpa [List.reverseAux_eq] using hloop

theorem gathers_gather (s : Stream) (limit : Nat) :
    Gathers read limit s (gather read s.patience limit s) := by
  obtain ⟨g, hg, hloop⟩ := s.exists_gathers (Nat.lt_succ_self (limit + s.patience)) []
  rw [gather, hloop]
  exact hg

end Stream

end ReadPool
