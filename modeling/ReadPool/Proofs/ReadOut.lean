import Mathlib
import ReadPool.Session.Run
import ReadPool.Proofs.Consumption
import ReadPool.Proofs.Reading

/-!
# Handles read out

One handle, known by any number of names, is read by steps of a session: once, exactly so many bytes,
to the end, or as text, and each time by the handle itself or as a stream. Whatever the steps are,
they take the stream apart from its beginning and without a gap (`reads_spend_in_order`): what each
of them gave or lost is what it took, and the next goes on behind it.

Each read of a loop locks the stream anew (`World.reader`), while a step of a session is one visit to
the stream; `Reader.Within` has why that is the same.
-/

namespace ReadPool

open Stream' (Seq)

/-! ## Readers within readers -/

namespace Gathered

/-- The same outcome, seen from where the state is a part of another. -/
def map (put : σ → τ) (g : Gathered σ) : Gathered τ := ⟨g.data, g.error, put g.state⟩

theorem exactly_map (put : σ → τ) (g : Gathered σ) (n : Nat) :
    (g.map put).exactly n = g.exactly n := rfl

theorem asText_map (put : σ → τ) (g : Gathered σ) : (g.map put).asText = g.asText := rfl

end Gathered

namespace Reader

variable {rd : Reader σ} {wide : Reader τ} {far : Reader υ} {put : σ → τ} {out : τ → υ}

/-- The second reader reads a part of its state, and does it like the first. -/
def Within (rd : Reader σ) (wide : Reader τ) (put : σ → τ) : Prop :=
  ∀ n s, wide n (put s) = ((rd n s).1, put (rd n s).2)

theorem Within.trans (h : Within rd wide put) (h' : Within wide far out) :
    Within rd far (out ∘ put) := by
  intro n s
  rw [Function.comp_apply, h', h]
  rfl

theorem Within.gatherLoop (h : Within rd wide put) (fuel missing : Nat) (back : List UInt8)
    (s : σ) : ReadPool.gatherLoop wide fuel missing back (put s)
      = (ReadPool.gatherLoop rd fuel missing back s).map put := by
  induction fuel generalizing missing back s with
  | zero => rfl
  | succ fuel ih =>
    rw [ReadPool.gatherLoop, ReadPool.gatherLoop, h]
    by_cases hm : missing = 0
    · rw [if_pos hm, if_pos hm]
      rfl
    · rw [if_neg hm, if_neg hm]
      rcases rd missing s with ⟨e | bytes, s'⟩
      · by_cases he : e.isInterrupted
        · simpa [he] using ih missing back s'
        · simp [he, Gathered.map]
      · cases bytes with
        | nil => rfl
        | cons b bytes => exact ih _ _ s'

end Reader

theorem Gathers.within {rd : Reader σ} {wide : Reader τ} {put : σ → τ} {missing : Nat} {s : σ}
    {g : Gathered σ} (hg : Gathers rd missing s g) (h : Reader.Within rd wide put) :
    Gathers wide missing (put s) (g.map put) := by
  have hwide {missing : Nat} {s s' : σ} {result : Except IoError (List UInt8)}
      (hread : rd missing s = (result, s')) : wide missing (put s) = (result, put s') := by
    rw [h, hread]
  induction hg with
  | full => exact .full
  | stopped hm hread => exact .stopped hm (hwide hread)
  | more hm hread hne hg ih => exact .more hm (hwide hread) hne ih
  | again hm hread he hg ih => exact .again hm (hwide hread) he ih
  | failed hm hread he => exact .failed hm (hwide hread) he

namespace Text

theorem eq_map_char {pieces : List Piece} {chars : List Char}
    (h : pieces.mapM Piece.char? = some chars) : pieces = chars.map Piece.char := by
  induction pieces generalizing chars with
  | nil =>
    cases h
    rfl
  | cons piece pieces ih =>
    rw [List.mapM_cons] at h
    obtain ⟨c, hc, h⟩ := Option.bind_eq_some_iff.1 h
    obtain ⟨rest, hrest, h⟩ := Option.bind_eq_some_iff.1 h
    cases h
    cases piece with
    | char c' =>
      cases hc
      rw [List.map_cons, ih hrest]
    | broken bytes => cases hc

/-- A text stands for the bytes that it was read from. -/
theorem encode_of_decode? {bytes : List UInt8} {text : String} (h : decode? bytes = some text) :
    encode text = bytes := by
  obtain ⟨chars, hchars, rfl⟩ := Option.map_eq_some_iff.1 h
  rw [encode, String.toList_ofList, ← flatMap_bytes_pieces bytes, eq_map_char hchars,
    List.flatMap_map]
  rfl

end Text

namespace World

/-- The reads of a handle, each with its stream locked for it alone. -/
def reader (rd : Reader σ) (h : WrapperId) (access : Access) : Reader (World σ) := fun n w =>
  (w.readBy rd h n access).getD (.ok [], w)

/-- The world, with the raw handle at a place in some state. -/
def withState (w : World σ) (raw : RawId) (state : σ) : World σ :=
  w.updateRaw raw fun r => { r with state }

section

variable {w : World σ} {raw : RawId} {r : RawHandle σ}

theorem updateRaw_eq_set (hr : w.raws[raw]? = some r) (f : RawHandle σ → RawHandle σ) :
    w.updateRaw raw f = { w with raws := w.raws.set raw (f r) } := by
  rw [updateRaw, List.modify_eq_set_getElem?, hr]
  rfl

theorem withState_self (hr : w.raws[raw]? = some r) : w.withState raw r.state = w := by
  rw [withState, updateRaw_eq_set hr]
  obtain ⟨hlt, rfl⟩ := List.getElem?_eq_some_iff.1 hr
  rw [List.set_getElem_self]

theorem readThrough_withState {h : WrapperId}
    (hraw : w.wrappers[h]?.bind Wrapper.stream = some raw) (hr : w.raws[raw]? = some r)
    (f : σ → α × σ) :
    w.readThrough h f = some ((f r.state).1, w.withState raw (f r.state).2) := by
  rw [readThrough, hraw, Option.bind_some, hr, Option.map_some, withState, updateRaw_eq_set hr,
    updateRaw_eq_set hr]

end

theorem within_reader (rd : Reader σ) {w : World σ} {h : WrapperId} {raw : RawId}
    (hstream : w.wrappers[h]?.bind Wrapper.stream = some raw) (hlt : raw < w.raws.length)
    (access : Access) : Reader.Within rd (reader rd h access) (w.withState raw) := by
  intro n state
  have hread : (w.withState raw state).readBy rd h n access
      = some ((rd n state).1, w.withState raw (rd n state).2) := by
    rw [System.readBy_eq, readThrough, withState, wrappers_updateRaw, hstream]
    simp [withState, updateRaw, List.getElem?_modify, List.getElem?_eq_getElem hlt,
      List.modify_modify_eq, Function.comp_def]
  rw [reader, hread]
  rfl

end World

namespace Session

/-! ## Requests -/

/-- What a caller can ask of a stream. -/
inductive Request where
  | read (n : Nat)
  | exactly (n : Nat)
  | toEnd (limit : Nat)
  | toText (limit : Nat)
deriving DecidableEq, Repr

namespace Request

/-- The most that it takes. -/
def size : Request → Nat
  | read n => n
  | exactly n => n
  | toEnd limit => limit
  | toText limit => limit

def step (name : String) : Request → Step
  | read n => .read name n
  | exactly n => .readExact name n
  | toEnd limit => .readToEnd name limit
  | toText limit => .readToString name limit

/-- The answer that is bytes and nothing else. -/
def ofBytes : Except IoError (List UInt8) → Result
  | .ok data => .bytes data
  | .error e => .readError e none

def ofAll (g : Gathered σ) : Result :=
  match g.error with
  | none => .allBytes g.data
  | some e => .readError e (some g.data)

def ofText (g : Gathered σ) : Result :=
  match g.asText with
  | .ok text => .allText g.data.length text
  | .error e => .readError e none

/-- What a request comes to whose loop, if it is one, runs to its end. -/
inductive Runs (rd : Reader σ) : Request → σ → Result → σ → Prop
  | read (n : Nat) (s : σ) : Runs rd (.read n) s (ofBytes (rd n s).1) (rd n s).2
  | exactly {n : Nat} {s : σ} {g : Gathered σ} (hg : Gathers rd n s g) :
    Runs rd (.exactly n) s (ofBytes (g.exactly n)) g.state
  | toEnd {limit : Nat} {s : σ} {g : Gathered σ} (hg : Gathers rd limit s g) :
    Runs rd (.toEnd limit) s (ofAll g) g.state
  | toText {limit : Nat} {s : σ} {g : Gathered σ} (hg : Gathers rd limit s g) :
    Runs rd (.toText limit) s (ofText g) g.state

/-- What a request has taken from a stream, by its answer: of a loop that fails, all that came before
is taken, and given only by one that reads to the end. -/
inductive Spent (rest : Stream) : Request → Result → List Signal → Prop
  | read {n : Nat} {data : List UInt8} {taken : List Signal}
    (h : ReadTakes n rest (.ok data) taken) : Spent rest (.read n) (.bytes data) taken
  | readFailed {n : Nat} {e : IoError} {taken : List Signal}
    (h : ReadTakes n rest (.error e) taken) : Spent rest (.read n) (.readError e none) taken
  | exactly {n : Nat} {taken : List Signal} (h : LoopTakes n rest none taken)
    (hall : (Signal.received taken).length = n) :
    Spent rest (.exactly n) (.bytes (Signal.received taken)) taken
  | short {n : Nat} {taken : List Signal} (h : LoopTakes n rest none taken)
    (hshort : (Signal.received taken).length < n) :
    Spent rest (.exactly n) (.readError unexpectedEof none) taken
  | exactlyFailed {n : Nat} {e : IoError} {taken : List Signal}
    (h : LoopTakes n rest (some e) taken) : Spent rest (.exactly n) (.readError e none) taken
  | toEnd {limit : Nat} {taken : List Signal} (h : LoopTakes limit rest none taken) :
    Spent rest (.toEnd limit) (.allBytes (Signal.received taken)) taken
  | toEndFailed {limit : Nat} {e : IoError} {taken : List Signal}
    (h : LoopTakes limit rest (some e) taken) :
    Spent rest (.toEnd limit) (.readError e (some (Signal.received taken))) taken
  | toText {limit : Nat} {text : String} {taken : List Signal}
    (h : LoopTakes limit rest none taken) (htext : Text.encode text = Signal.received taken) :
    Spent rest (.toText limit) (.allText (Signal.received taken).length text) taken
  | noText {limit : Nat} {taken : List Signal} (h : LoopTakes limit rest none taken)
    (htext : Text.decode? (Signal.received taken) = none) :
    Spent rest (.toText limit) (.readError invalidText none) taken
  | toTextFailed {limit : Nat} {e : IoError} {taken : List Signal}
    (h : LoopTakes limit rest (some e) taken) : Spent rest (.toText limit) (.readError e none) taken

variable {request : Request} {stream rest : Stream} {result : Result} {taken : List Signal}

theorem Runs.within {rd : Reader σ} {wide : Reader τ} {put : σ → τ} {s s' : σ}
    (hr : Runs rd request s result s') (h : Reader.Within rd wide put) :
    Runs wide request (put s) result (put s') := by
  cases hr with
  | read n s =>
    have hread : Runs wide (.read n) (put s) _ _ := Runs.read n (put s)
    rwa [h] at hread
  | exactly hg => exact .exactly (hg.within h)
  | toEnd hg => exact .toEnd (hg.within h)
  | toText hg => exact .toText (hg.within h)

/-- A request takes a beginning of what the stream has to give, and its answer says what. -/
theorem Runs.spent (h : Runs Stream.read request stream result rest) :
    ∃ taken, request.Spent rest result taken ∧ stream.Spends taken rest := by
  cases h with
  | read n s =>
    obtain ⟨taken, htakes, hspends⟩ := Stream.exists_taken (Eq.refl (stream.read n))
    refine ⟨taken, ?_, hspends⟩
    rcases hread : (stream.read n).1 with e | data
    · exact .readFailed (hread ▸ htakes)
    · exact .read (hread ▸ htakes)
  | @exactly n s g hg =>
    obtain ⟨taken, hloop, hdata, hspends⟩ := hg.taken
    refine ⟨taken, ?_, hspends⟩
    rw [Gathered.exactly, ← hdata]
    cases herror : g.error with
    | some e => exact .exactlyFailed (herror ▸ hloop)
    | none =>
      rw [herror] at hloop
      rcases Nat.lt_or_ge (Signal.received taken).length n with hshort | hall
      · rw [if_pos hshort]
        exact .short hloop hshort
      · rw [if_neg (Nat.not_lt.2 hall)]
        exact .exactly hloop (hloop.length_le.antisymm hall)
  | @toEnd limit s g hg =>
    obtain ⟨taken, hloop, hdata, hspends⟩ := hg.taken
    refine ⟨taken, ?_, hspends⟩
    rw [ofAll, ← hdata]
    cases herror : g.error with
    | some e => exact .toEndFailed (herror ▸ hloop)
    | none => exact .toEnd (herror ▸ hloop)
  | @toText limit s g hg =>
    obtain ⟨taken, hloop, hdata, hspends⟩ := hg.taken
    refine ⟨taken, ?_, hspends⟩
    rw [ofText, Gathered.asText, ← hdata]
    cases herror : g.error with
    | some e => exact .toTextFailed (herror ▸ hloop)
    | none =>
      rw [herror] at hloop
      cases htext : Text.decode? (Signal.received taken) with
      | some text => exact .toText hloop (Text.encode_of_decode? htext)
      | none => exact .noText hloop htext

/-- No request takes more than it may. -/
theorem Spent.length_le (h : request.Spent rest result taken) :
    (Signal.received taken).length ≤ request.size := by
  cases h with
  | read h => exact h.length_le
  | readFailed h => exact h.length_le
  | exactly h => exact h.length_le
  | short h => exact h.length_le
  | exactlyFailed h => exact h.length_le
  | toEnd h => exact h.length_le
  | toEndFailed h => exact h.length_le
  | toText h => exact h.length_le
  | noText h => exact h.length_le
  | toTextFailed h => exact h.length_le

end Request

/-! ## Handles of a session -/

namespace Content

def stream? : Content → Option Stream
  | scripted _ opening => some opening.stream
  | file _ => none

end Content

/-- One request by a name, by the handle's own function or as a stream. -/
structure Visit where
  name : String
  access : Access
  request : Request

/-- A visit that is over: the answer, and what it took from the stream. -/
structure Visited where
  visit : Visit
  result : Result
  taken : List Signal

namespace State

variable {s : State} {h : WrapperId} {stream : Stream}

/-- What is left of the stream that a handle reads, if its opener was scripted. -/
def stream? (s : State) (h : WrapperId) : Option Stream :=
  (s.world.stream? h).bind fun raw => raw.state.stream?

/-- A visit to the stream of `h` that leaves `rest` of it: the step of the session does what the
request comes to that is made read by read, by whatever access. -/
structure Serves (m : Means) (h : WrapperId) (s : State) (x : Visited) (rest : Stream)
    (s' : State) : Prop where
  step : s.runStep m (x.visit.request.step x.visit.name) = (s', x.result)
  runs : x.visit.request.Runs (World.reader s.readContent h x.visit.access) s.world x.result
    s'.world
  stream : s'.stream? h = some rest
  spent : x.visit.request.Spent rest x.result x.taken

/-- The requests of a handle, in the order in which the session answers them. -/
inductive ReadOut (m : Means) (h : WrapperId) : State → List Visited → State → Prop
  | nil {s : State} : ReadOut m h s [] s
  | cons {s s₁ s₂ : State} {rest : Stream} {x : Visited} {later : List Visited}
    (hx : Serves m h s x rest s₁) (hlater : ReadOut m h s₁ later s₂) :
    ReadOut m h s (x :: later) s₂

/-- The handling of a request within one visit to the stream. -/
def answer (s : State) : Request → Content → Result × Content
  | .read n => s.readOnce n
  | .exactly n => s.readExactly n
  | .toEnd limit => s.readToEnd limit
  | .toText limit => s.readToString limit

theorem runStep_request (m : Means) (s : State) (request : Request) (name : String) :
    s.runStep m (request.step name) = s.readBy name (s.answer request) := by
  cases request <;> rfl

theorem within_readContent (s : State) (number : Nat) (opening : Opening) :
    Reader.Within Stream.read s.readContent
      (fun stream => .scripted number { opening with stream }) := fun _ _ => rfl

/-- The bound on the reads of a request's loop is enough. -/
theorem gatherFrom_scripted (s : State) (limit number : Nat) (opening : Opening) :
    ∃ g, Gathers Stream.read limit opening.stream g ∧
      s.gatherFrom limit (.scripted number opening)
        = g.map fun stream => .scripted number { opening with stream } :=
  ⟨_, opening.stream.gathers_gather limit,
    (s.within_readContent number opening).gatherLoop _ limit [] opening.stream⟩

/-- A visit answers as the request does by itself, and leaves the stream where that leaves it. -/
theorem exists_answer (s : State) (request : Request) (number : Nat) (opening : Opening) :
    ∃ result rest, request.Runs Stream.read opening.stream result rest ∧
      s.answer request (.scripted number opening)
        = (result, .scripted number { opening with stream := rest }) := by
  cases request with
  | read n =>
    refine ⟨_, _, .read n opening.stream, ?_⟩
    rw [answer, readOnce, readContent]
    rcases opening.stream.read n with ⟨e | data, rest⟩ <;> rfl
  | exactly n =>
    obtain ⟨g, hg, hgather⟩ := s.gatherFrom_scripted n number opening
    refine ⟨_, _, .exactly hg, ?_⟩
    rw [answer, readExactly, hgather, Gathered.exactly_map]
    cases g.exactly n <;> rfl
  | toEnd limit =>
    obtain ⟨g, hg, hgather⟩ := s.gatherFrom_scripted limit number opening
    refine ⟨_, _, .toEnd hg, ?_⟩
    rw [answer, readToEnd, hgather, Request.ofAll, Gathered.map]
    cases g.error <;> rfl
  | toText limit =>
    obtain ⟨g, hg, hgather⟩ := s.gatherFrom_scripted limit number opening
    refine ⟨_, _, .toText hg, ?_⟩
    rw [answer, readToString, hgather, Request.ofText, Gathered.asText_map]
    cases g.asText <;> rfl

/-- A handle that is known by a name reads a raw handle in some state. -/
theorem exists_raw (hs : s.stream? h = some stream) : ∃ raw r number opening,
    s.world.wrappers[h]?.bind Wrapper.stream = some raw ∧ s.world.raws[raw]? = some r ∧
      r.state = .scripted number opening ∧ opening.stream = stream := by
  obtain ⟨r, hr, hstate⟩ := Option.bind_eq_some_iff.1 hs
  obtain ⟨raw, hraw, hr⟩ := Option.bind_eq_some_iff.1 hr
  cases hcontent : r.state with
  | scripted number opening =>
    rw [hcontent] at hstate
    exact ⟨raw, r, number, opening, hraw, hr, hcontent, Option.some.inj hstate⟩
  | file file =>
    rw [hcontent] at hstate
    cases hstate

/-- The session, with the raw handle at a place in some state. -/
def leave (s : State) (raw : RawId) (content : Content) : State :=
  { s with world := s.world.withState raw content }

theorem readBy_eq {name : String} {raw : RawId} {r : RawHandle Content}
    (hname : s.handles.find? name = some h)
    (hraw : s.world.wrappers[h]?.bind Wrapper.stream = some raw)
    (hr : s.world.raws[raw]? = some r) (f : Content → Result × Content) :
    s.readBy name f = (s.leave raw (f r.state).2, (f r.state).1) := by
  rw [readBy, withHandle, hname]
  simp only [World.readThrough_withState hraw hr, leave]

/-- One request, answered. -/
theorem exists_serves (m : Means) {visit : Visit} (hname : s.handles.find? visit.name = some h)
    (hs : s.stream? h = some stream) : ∃ result taken rest s',
      Serves m h s ⟨visit, result, taken⟩ rest s' ∧ stream.Spends taken rest ∧
      s'.handles = s.handles := by
  obtain ⟨raw, r, number, opening, hraw, hr, hstate, rfl⟩ := exists_raw hs
  obtain ⟨result, rest, hruns, hanswer⟩ := s.exists_answer visit.request number opening
  obtain ⟨taken, hspent, hspends⟩ := hruns.spent
  have hlt := (List.getElem?_eq_some_iff.1 hr).1
  have hwide := hruns.within ((s.within_readContent number opening).trans
    (World.within_reader s.readContent hraw hlt visit.access))
  have hserves : Serves m h s ⟨visit, result, taken⟩ rest
      (s.leave raw (.scripted number { opening with stream := rest })) := by
    refine ⟨?_, ?_, ?_, hspent⟩
    · rw [runStep_request, readBy_eq hname hraw hr, hstate, hanswer]
    · have hnow : s.world.withState raw (.scripted number opening) = s.world := by
        rw [← hstate]
        exact World.withState_self hr
      rwa [Function.comp_apply, Function.comp_apply, hnow] at hwide
    · rw [stream?, leave, World.stream?, World.withState, World.wrappers_updateRaw, hraw,
        Option.bind_some, World.updateRaw]
      simp [hr, Content.stream?]
  exact ⟨result, taken, rest, _, hserves, hspends, rfl⟩

theorem exists_readOut (m : Means) {visits : List Visit}
    (hnames : ∀ v ∈ visits, s.handles.find? v.name = some h) (hs : s.stream? h = some stream) :
    ∃ visited s' rest, visited.map Visited.visit = visits ∧ ReadOut m h s visited s' ∧
      s'.stream? h = some rest ∧ stream.Spends (visited.flatMap Visited.taken) rest := by
  induction visits generalizing s stream with
  | nil => exact ⟨[], s, stream, rfl, .nil, hs, .refl stream⟩
  | cons visit visits ih =>
    obtain ⟨result, taken, rest, s₁, hserves, hspends, hhandles⟩ :=
      exists_serves m (hnames visit List.mem_cons_self) hs
    have hnames' : ∀ v ∈ visits, s₁.handles.find? v.name = some h := by
      intro v hv
      rw [hhandles]
      exact hnames v (List.mem_cons_of_mem visit hv)
    obtain ⟨later, s', rest', hvisits, hlater, hstream, hspends'⟩ := ih hnames' hserves.stream
    refine ⟨⟨visit, result, taken⟩ :: later, s', rest', ?_, .cons hserves hlater, hstream, ?_⟩
    · rw [List.map_cons, hvisits]
    · rw [List.flatMap_cons]
      exact hspends.trans hspends'

theorem ReadOut.length_le {m : Means} {visited : List Visited} {s' : State}
    (hr : ReadOut m h s visited s') :
    ∀ x ∈ visited, (Signal.received x.taken).length ≤ x.visit.request.size := by
  induction hr with
  | nil => simp
  | cons hx hlater ih => exact List.forall_mem_cons.2 ⟨hx.spent.length_le, ih⟩

/-- Whatever is asked of one handle, by whatever names and in whatever way: all requests are answered,
none takes more than it may, and what they take, one after another, is a beginning of the stream. So
the bytes that each of them gives or loses are those that come next. -/
theorem reads_spend_in_order (m : Means) {visits : List Visit}
    (hnames : ∀ v ∈ visits, s.handles.find? v.name = some h) (hs : s.stream? h = some stream) :
    ∃ visited s' rest, visited.map Visited.visit = visits ∧ ReadOut m h s visited s' ∧
      (∀ x ∈ visited, (Signal.received x.taken).length ≤ x.visit.request.size) ∧
      s'.stream? h = some rest ∧ stream.Spends (visited.flatMap Visited.taken) rest ∧
      stream.source.data
        = (Seq.ofList (visited.flatMap fun x => Signal.received x.taken)).append rest.source.data := by
  obtain ⟨visited, s', rest, hvisits, hread, hstream, hspends⟩ := exists_readOut m hnames hs
  refine ⟨visited, s', rest, hvisits, hread, hread.length_le, hstream, hspends, ?_⟩
  rw [hspends.data, Signal.received, List.filterMap_flatMap]
  rfl

/-- It gives two bytes at a time, is interrupted, fails, and ends in what is no text. -/
def rough : Stream where
  source := .script [.data [1, 2, 3], .fail (.os 4), .data [4, 5], .fail .busy, .data [0xC3], .eof,
    .data [0x68]]
  chunk := some 2

def script : Script where
  steps := []
  openings := [("/a", [{ stream := rough }])]

/-- Two names of one handle. -/
def opened : State :=
  ([.newPool "p" false {}, .acquire "p" (.ofString "/a") (some "a") false,
    .clone "a" (some "b")] : List Step).foldl
      (fun s step => (s.runStep script.means step).1) script.initial

/-- The handle is read in every way, and through both names. -/
def visits : List Visit :=
  [⟨"a", .direct, .read 1⟩, ⟨"b", .owned, .exactly 3⟩, ⟨"a", .borrowed, .toEnd 9⟩,
    ⟨"a", .owned, .exactly 0⟩, ⟨"b", .borrowed, .toText 4⟩, ⟨"a", .owned, .exactly 2⟩]

theorem reads_spend_in_order_rough :
    (∀ v ∈ visits, opened.handles.find? v.name = some 0) ∧ opened.stream? 0 = some rough ∧
    ∃ visited s' rest, visited.map Visited.visit = visits ∧
      ReadOut script.means 0 opened visited s' ∧
      (∀ x ∈ visited, (Signal.received x.taken).length ≤ x.visit.request.size) ∧
      s'.stream? 0 = some rest ∧ rough.Spends (visited.flatMap Visited.taken) rest ∧
      rough.source.data
        = (Seq.ofList (visited.flatMap fun x => Signal.received x.taken)).append
            rest.source.data := by
  have hnames : ∀ v ∈ visits, opened.handles.find? v.name = some 0 := by decide +kernel
  have hstream : opened.stream? 0 = some rough := by decide +kernel
  exact ⟨hnames, hstream, reads_spend_in_order script.means hnames hstream⟩

end State

end Session

end ReadPool
