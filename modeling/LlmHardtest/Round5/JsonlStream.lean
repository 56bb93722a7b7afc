import LlmHardtest.Library.Framing
import LlmHardtest.Python.Value
set_option autoImplicit false

/-! The reference event stream of the JSONL task: bytes in chunks, one JSON object on each line, and
callbacks that run outside the lock, one at a time, in the order of the lines. -/

namespace Round5.JsonlStream
open Python Framing

/-- What the error callback gets; `undecodable` with the text of what the decoder raised. -/
inductive StreamError where
  | undecodable (message : Str)
  | notAnObject
  | oversized
  deriving DecidableEq, Repr

inductive Callback where
  | onEvent (fields : List (Str × Json))
  | onError (e : StreamError)

def isBlank (b : UInt8) : Bool := decide (b.toNat = 32 ∨ (9 ≤ b.toNat ∧ b.toNat ≤ 13))

def isNewline (b : UInt8) : Bool := decide (b = 10)

def chomp (raw : Bytes) : Bytes := if raw.getLast? = some 13 then raw.dropLast else raw

/-- What `json.loads(raw.decode("utf-8"))` raises: a `ValueError` with its text, or anything else, such
as a `RecursionError`. -/
inductive LoadFailure where
  | valueError (message : Str)
  | uncaught (what : Str)

abbrev Decoder := Bytes → Except LoadFailure Json

variable (decode : Decoder) (maxFrameBytes : Nat)

/-- `_frame`: the callbacks that it queues, or what it lets through. -/
def frame (raw : Bytes) : Except Str (List Callback) :=
  let raw := chomp raw
  if raw.all isBlank then .ok []
  else
    match decode raw with
    | .ok (.obj fields) => .ok [.onEvent fields]
    | .ok _ => .ok [.onError .notAnObject]
    | .error (.valueError message) => .ok [.onError (.undecodable message)]
    | .error (.uncaught what) => .error what

def frameBytes (buffer : Bytes) : Nat :=
  if buffer.getLast? = some 13 then buffer.length - 1 else buffer.length

/-- What `feed` and `close` read and write under the lock, with the callbacks that wait. -/
structure Framer where
  buffer : Bytes := []
  discarding : Bool := false
  queue : List Callback := []

/-- A framer, and what has left the section that it is in. -/
structure Reading where
  framer : Framer
  raised : Option Str := none

def Framer.frameBuffer (f : Framer) (buffer : Bytes) : Reading :=
  match frame decode buffer with
  | .ok callbacks => ⟨{ f with buffer := [], queue := f.queue ++ callbacks }, none⟩
  | .error what => ⟨{ f with buffer }, some what⟩

/-- One round of the loop of `feed`: the data up to a newline or to the end of the chunk. -/
def Framer.take (f : Framer) (data : Bytes) (newline : Bool) : Reading :=
  if f.discarding then ⟨{ f with discarding := !newline }, none⟩
  else
    let buffer := f.buffer ++ data
    if maxFrameBytes < frameBytes buffer then
      ⟨{ buffer := [], discarding := !newline, queue := f.queue ++ [.onError .oversized] }, none⟩
    else if newline then f.frameBuffer decode buffer
    else ⟨{ f with buffer := buffer }, none⟩

def Reading.take (r : Reading) (data : Bytes) (newline : Bool) : Reading :=
  if r.raised.isSome then r else r.framer.take decode maxFrameBytes data newline

def Reading.feed (r : Reading) (chunk : Bytes) : Reading :=
  Framing.feed isNewline (Reading.take decode maxFrameBytes) r chunk

def Framer.close (f : Framer) : Reading :=
  if f.discarding then ⟨{ f with buffer := [], discarding := false }, none⟩
  else if f.buffer.isEmpty then ⟨f, none⟩
  else f.frameBuffer decode f.buffer

/-! ## What a stream says -/

def lineCallbacks (line : Bytes) : List Callback :=
  if maxFrameBytes < frameBytes line then [.onError .oversized]
  else (frame decode line).toOption.getD []

def lineRaises (line : Bytes) : Option Str :=
  if maxFrameBytes < frameBytes line then none
  else
    match frame decode line with
    | .ok _ => none
    | .error what => some what

/-- What an unfinished line has called back so far. -/
def openCallbacks (line : Bytes) : List Callback :=
  if maxFrameBytes < frameBytes line then [.onError .oversized] else []

def lines (text : Bytes) : List Bytes := text.splitOnP isNewline

/-- The lines that are framed: those with a newline, and the last one when the stream is closed. -/
def framed (text : Bytes) (closed : Bool) : List Bytes :=
  (lines text).dropLast ++ if closed then [(lines text).getLastD []] else []

def script (text : Bytes) (closed : Bool) : List Callback :=
  (framed text closed).flatMap (lineCallbacks decode maxFrameBytes) ++
    if closed then [] else openCallbacks maxFrameBytes ((lines text).getLastD [])

section Frames
variable {maxFrameBytes} {buffer data : Bytes}

theorem frameBytes_le (buffer : Bytes) : frameBytes buffer ≤ buffer.length := by
  unfold frameBytes
  split <;> omega

theorem le_frameBytes (buffer : Bytes) : buffer.length ≤ frameBytes buffer + 1 := by
  unfold frameBytes
  split <;> omega

theorem oversized_append (h : maxFrameBytes < frameBytes buffer) (data : Bytes) :
    maxFrameBytes < frameBytes (buffer ++ data) := by
  cases data with
  | nil => simpa using h
  | cons b data =>
    have hle := frameBytes_le buffer
    have hge := le_frameBytes (buffer ++ b :: data)
    rw [List.length_append, List.length_cons] at hge
    omega

@[simp] theorem frame_nil : frame decode [] = .ok [] := by simp [frame, chomp]

end Frames

section Chunks
variable {decode} {maxFrameBytes}

theorem take_open (f : Framer) (data : Bytes) :
    (f.take decode maxFrameBytes data false).raised = none := by
  unfold Framer.take
  dsimp only
  split
  · rfl
  · split <;> rfl

theorem take_take (f : Framer) {x y : Bytes} {newline : Bool} :
    (f.take decode maxFrameBytes x false).framer.take decode maxFrameBytes y newline =
      f.take decode maxFrameBytes (x ++ y) newline := by
  obtain ⟨buffer, discarding, queue⟩ := f
  cases discarding with
  | true => simp [Framer.take]
  | false =>
    by_cases hx : maxFrameBytes < frameBytes (buffer ++ x)
    · have hxy := oversized_append hx y
      rw [List.append_assoc] at hxy
      simp [Framer.take, hx, hxy]
    · simp only [Framer.take, hx, List.append_assoc, Bool.false_eq_true, if_false]
      rfl

/-- A round of the loop does not see where the data was cut. -/
theorem take_divisible : Divisible (Reading.take decode maxFrameBytes) := by
  intro r x y newline hy
  by_cases hr : r.raised.isSome = true
  · simp [Reading.take, hr]
  · simp only [Reading.take, hr, take_open, take_take r.framer, Option.isSome_none,
      Bool.false_eq_true, if_false]

theorem feed_append (r : Reading) (as bs : Bytes) :
    (r.feed decode maxFrameBytes as).feed decode maxFrameBytes bs =
      r.feed decode maxFrameBytes (as ++ bs) :=
  Framing.feed_append take_divisible r as bs

theorem foldl_raised {r : Reading} (hr : r.raised.isSome = true) (stretches : List (Bytes × Bool)) :
    stretches.foldl (fun (r : Reading) p => r.take decode maxFrameBytes p.1 p.2) r = r := by
  induction stretches with
  | nil => rfl
  | cons p rest ih => rw [List.foldl_cons, Reading.take, if_pos hr, ih]

theorem feed_raised {r : Reading} (hr : r.raised.isSome = true) (chunk : Bytes) :
    r.feed decode maxFrameBytes chunk = r := foldl_raised hr _

theorem take_line (queue : List Callback) {line : Bytes} (h : lineRaises decode maxFrameBytes line = none) :
    Reading.take decode maxFrameBytes ⟨⟨[], false, queue⟩, none⟩ line true =
      ⟨⟨[], false, queue ++ lineCallbacks decode maxFrameBytes line⟩, none⟩ := by
  unfold lineRaises at h
  by_cases hlong : maxFrameBytes < frameBytes line
  · simp [Reading.take, Framer.take, lineCallbacks, hlong]
  · rw [if_neg hlong] at h
    cases hframe : frame decode line with
    | ok callbacks =>
      simp [Reading.take, Framer.take, Framer.frameBuffer, lineCallbacks, hlong, hframe, Except.toOption]
    | error what => simp [hframe] at h

theorem take_raises (queue : List Callback) {line : Bytes} {what : Str}
    (h : lineRaises decode maxFrameBytes line = some what) :
    (Reading.take decode maxFrameBytes ⟨⟨[], false, queue⟩, none⟩ line true).raised = some what := by
  unfold lineRaises at h
  split at h
  · cases h
  · rename_i hlong
    split at h
    · cases h
    · rename_i hframe
      cases h
      simp [Reading.take, Framer.take, Framer.frameBuffer, hlong, hframe]

theorem take_lines (queue : List Callback) {whole : List Bytes}
    (h : ∀ line ∈ whole, lineRaises decode maxFrameBytes line = none) :
    (whole.map fun x => (x, true)).foldl (fun (r : Reading) p => r.take decode maxFrameBytes p.1 p.2)
        ⟨⟨[], false, queue⟩, none⟩ =
      ⟨⟨[], false, queue ++ whole.flatMap (lineCallbacks decode maxFrameBytes)⟩, none⟩ := by
  induction whole generalizing queue with
  | nil => simp
  | cons line rest ih =>
    obtain ⟨hline, hrest⟩ := List.forall_mem_cons.mp h
    rw [List.map_cons, List.foldl_cons, take_line queue hline, ih _ hrest, List.flatMap_cons,
      List.append_assoc]

theorem take_lines_raised (queue : List Callback) {whole : List Bytes} {line : Bytes}
    (hmem : line ∈ whole) (h : lineRaises decode maxFrameBytes line ≠ none) :
    ((whole.map fun x => (x, true)).foldl (fun (r : Reading) p => r.take decode maxFrameBytes p.1 p.2)
      ⟨⟨[], false, queue⟩, none⟩).raised.isSome = true := by
  induction whole generalizing queue with
  | nil => cases hmem
  | cons first rest ih =>
    rw [List.map_cons, List.foldl_cons]
    cases hfirst : lineRaises decode maxFrameBytes first with
    | some what =>
      have hraised := take_raises queue hfirst
      rw [foldl_raised (by rw [hraised]; rfl), hraised]
      rfl
    | none =>
      rw [take_line queue hfirst]
      rcases List.mem_cons.mp hmem with rfl | hmem
      · exact absurd hfirst h
      · exact ih _ hmem

variable (decode maxFrameBytes) in
/-- The reading of a text from the start, and of its end when the stream is closed. -/
def readText (text : Bytes) (closed : Bool) : Reading :=
  let r := Reading.feed decode maxFrameBytes ⟨{}, none⟩ text
  if closed && r.raised.isNone then r.framer.close decode else r

theorem readText_append (text chunk : Bytes) : readText decode maxFrameBytes (text ++ chunk) false =
    (readText decode maxFrameBytes text false).feed decode maxFrameBytes chunk :=
  (feed_append _ text chunk).symm

theorem readText_open (text : Bytes) : readText decode maxFrameBytes text false =
    let last := (lines text).getLastD []
    (if last = [] then [] else [(last, false)]).foldl
      (fun (r : Reading) p => r.take decode maxFrameBytes p.1 p.2)
      (((lines text).dropLast.map fun x => (x, true)).foldl
        (fun (r : Reading) p => r.take decode maxFrameBytes p.1 p.2) ⟨{}, none⟩) := by
  rw [readText, Bool.false_and, if_neg (by decide), Reading.feed, Framing.feed, stretches_eq,
    List.foldl_append]
  rfl

/-- The framer after lines that raise nothing: the unfinished line is in the buffer, unless it is too
long already. -/
theorem readText_eq {text : Bytes}
    (h : ∀ line ∈ framed text false, lineRaises decode maxFrameBytes line = none) :
    readText decode maxFrameBytes text false =
      let last := (lines text).getLastD []
      let long := decide (maxFrameBytes < frameBytes last)
      ⟨⟨if long then [] else last, long, script decode maxFrameBytes text false⟩, none⟩ := by
  have hnil : ¬ maxFrameBytes < frameBytes [] := by simp [frameBytes]
  rw [framed, if_neg (by decide), List.append_nil] at h
  rw [readText_open, take_lines [] h, script, framed]
  generalize (lines text).getLastD [] = last
  by_cases hlast : last = []
  · subst hlast
    simp [openCallbacks, hnil]
  · by_cases hlong : maxFrameBytes < frameBytes last
    · simp [hlast, Reading.take, Framer.take, openCallbacks, hlong]
    · simp [hlast, Reading.take, Framer.take, openCallbacks, hlong]

theorem readText_close {text : Bytes} {f : Framer}
    (h : readText decode maxFrameBytes text false = ⟨f, none⟩) :
    readText decode maxFrameBytes text true = f.close decode := by
  rw [readText, Bool.false_and, if_neg (by decide)] at h
  simp [readText, h]

theorem readText_closed {text : Bytes}
    (h : ∀ line ∈ framed text false, lineRaises decode maxFrameBytes line = none) :
    readText decode maxFrameBytes text true =
      Framer.close decode ⟨if maxFrameBytes < frameBytes ((lines text).getLastD []) then []
          else (lines text).getLastD [],
        decide (maxFrameBytes < frameBytes ((lines text).getLastD [])),
        (framed text false).flatMap (lineCallbacks decode maxFrameBytes) ++
          openCallbacks maxFrameBytes ((lines text).getLastD [])⟩ := by
  rw [readText_close (readText_eq h)]
  simp [script]

theorem close_last (queue : List Callback) {last : Bytes}
    (h : lineRaises decode maxFrameBytes last = none) :
    Framer.close decode ⟨if maxFrameBytes < frameBytes last then [] else last,
        decide (maxFrameBytes < frameBytes last), queue ++ openCallbacks maxFrameBytes last⟩ =
      ⟨⟨[], false, queue ++ lineCallbacks decode maxFrameBytes last⟩, none⟩ := by
  unfold lineRaises at h
  by_cases hlong : maxFrameBytes < frameBytes last
  · simp [Framer.close, openCallbacks, lineCallbacks, hlong]
  · rw [if_neg hlong] at h
    by_cases hlast : last = []
    · subst hlast
      simp [Framer.close, openCallbacks, lineCallbacks, hlong, Except.toOption]
    · cases hframe : frame decode last with
      | ok callbacks =>
        simp [Framer.close, Framer.frameBuffer, openCallbacks, lineCallbacks, hlong, hlast, hframe,
          Except.toOption]
      | error what => simp [hframe] at h

theorem close_last_raises (queue : List Callback) {last : Bytes} {what : Str}
    (h : lineRaises decode maxFrameBytes last = some what) :
    (Framer.close decode ⟨if maxFrameBytes < frameBytes last then [] else last,
        decide (maxFrameBytes < frameBytes last),
        queue ++ openCallbacks maxFrameBytes last⟩).raised = some what := by
  unfold lineRaises at h
  split at h
  · cases h
  · rename_i hlong
    split at h
    · cases h
    · rename_i hframe
      cases h
      have hlast : last ≠ [] := by
        rintro rfl
        simp at hframe
      simp [Framer.close, Framer.frameBuffer, openCallbacks, hlong, hlast, hframe]

theorem readText_raised {text : Bytes} {line : Bytes} (hmem : line ∈ framed text false)
    (h : lineRaises decode maxFrameBytes line ≠ none) (closed : Bool) :
    (readText decode maxFrameBytes text closed).raised.isSome = true := by
  rw [framed, if_neg (by decide), List.append_nil] at hmem
  have hopen : (readText decode maxFrameBytes text false).raised.isSome = true := by
    have hlines := take_lines_raised [] hmem h
    rw [readText_open, foldl_raised hlines]
    exact hlines
  cases closed with
  | false => exact hopen
  | true =>
    rw [readText, Bool.false_and, if_neg (by decide)] at hopen
    have hsome : (Reading.feed decode maxFrameBytes ⟨{}, none⟩ text).raised ≠ none := by
      rintro hnone
      simp [hnone] at hopen
    simp [readText, hsome, hopen]

/-- The reading raises where one of its lines does. -/
theorem readText_raised_iff {text : Bytes} {closed : Bool} :
    (readText decode maxFrameBytes text closed).raised.isSome = true ↔
      ∃ line ∈ framed text closed, lineRaises decode maxFrameBytes line ≠ none := by
  by_cases hbefore : ∃ line ∈ framed text false, lineRaises decode maxFrameBytes line ≠ none
  · obtain ⟨line, hmem, hline⟩ := hbefore
    refine iff_of_true (readText_raised hmem hline closed) ⟨line, ?_, hline⟩
    rw [framed, if_neg (by decide), List.append_nil] at hmem
    exact List.mem_append_left _ hmem
  · have hsettled : ∀ line ∈ framed text false, lineRaises decode maxFrameBytes line = none := by
      simpa using hbefore
    cases closed with
    | false =>
      rw [readText_eq hsettled]
      exact iff_of_false (by simp) hbefore
    | true =>
      have hlast : (∃ line ∈ framed text true, lineRaises decode maxFrameBytes line ≠ none) ↔
          lineRaises decode maxFrameBytes ((lines text).getLastD []) ≠ none := by
        constructor
        · rintro ⟨line, hmem, hline⟩
          rcases List.mem_append.mp hmem with hmem | hmem
          · exact absurd ⟨line, by simpa [framed] using hmem, hline⟩ hbefore
          · obtain rfl : line = (lines text).getLastD [] := by simpa using hmem
            exact hline
        · exact fun h => ⟨_, List.mem_append_right _ (by simp), h⟩
      rw [hlast, readText_closed hsettled]
      cases hraises : lineRaises decode maxFrameBytes ((lines text).getLastD []) with
      | none => rw [close_last _ hraises]; simp
      | some what => rw [close_last_raises _ hraises]; simp

theorem close_eq {text : Bytes}
    (h : ∀ line ∈ framed text true, lineRaises decode maxFrameBytes line = none) :
    readText decode maxFrameBytes text true =
      ⟨⟨[], false, script decode maxFrameBytes text true⟩, none⟩ := by
  have hsettled : ∀ line ∈ framed text false, lineRaises decode maxFrameBytes line = none :=
    fun line hmem => h line (by
      rw [framed, if_neg (by decide), List.append_nil] at hmem
      exact List.mem_append_left _ hmem)
  rw [readText_closed hsettled, close_last _ (h _ (List.mem_append_right _ (by simp)))]
  simp [script, framed]

end Chunks

/-! ## Delivery -/

inductive Failure where
  | streamClosed
  | decoder (what : Str)
  | callback (what : Nat)
  deriving DecidableEq, Repr

/-- Where a call of `feed` or `close` stands after its section at the lock. -/
inductive Phase where
  | draining
  | calling (c : Callback)
  | returned
  | raised (e : Failure)

structure State where
  framer : Framer := {}
  draining : Bool := false
  closed : Bool := false
  calls : List Phase := []
  received : List Bytes := []
  log : List Callback := []

inductive Action where
  | feed (chunk : Bytes)
  | close
  | next (i : Nat)
  | back (i : Nat) (raised : Option Nat)

def State.startDrain (s : State) : State :=
  if s.draining || s.framer.queue.isEmpty then { s with calls := s.calls ++ [.returned] }
  else { s with draining := true, calls := s.calls ++ [.draining] }

/-- The end of a section that read lines: it starts to drain, unless it raises before that. -/
def State.settle (s : State) (r : Reading) : State :=
  match r.raised with
  | none => { s with framer := r.framer }.startDrain
  | some what => { s with framer := r.framer, calls := s.calls ++ [.raised (.decoder what)] }

def State.feed (s : State) (chunk : Bytes) : State :=
  if s.closed then { s with calls := s.calls ++ [.raised .streamClosed] }
  else
    { s with received := s.received ++ [chunk] }.settle
      (Reading.feed decode maxFrameBytes ⟨s.framer, none⟩ chunk)

def State.close (s : State) : State :=
  if s.closed then { s with calls := s.calls ++ [.returned] }
  else { s with closed := true }.settle (s.framer.close decode)

def State.next (s : State) (i : Nat) : State :=
  match s.framer.queue with
  | [] => { s with draining := false, calls := s.calls.set i .returned }
  | c :: rest =>
      { s with framer := { s.framer with queue := rest }
               log := s.log ++ [c]
               calls := s.calls.set i (.calling c) }

def State.back (s : State) (i : Nat) : Option Nat → State
  | none => { s with calls := s.calls.set i .draining }
  | some what =>
      { s with draining := false, calls := s.calls.set i (.raised (.callback what)) }

def State.step (s : State) : Action → Option State
  | .feed chunk => some (s.feed decode maxFrameBytes chunk)
  | .close => some (s.close decode)
  | .next i =>
      s.calls[i]?.bind fun p =>
        match p with
        | .draining => some (s.next i)
        | _ => none
  | .back i raised =>
      s.calls[i]?.bind fun p =>
        match p with
        | .calling _ => some (s.back i raised)
        | _ => none

/-- Any order of the sections of any calls; an action that is not possible does nothing. -/
def run (s : State) : List Action → State
  | [] => s
  | a :: as => run ((s.step decode maxFrameBytes a).getD s) as

def Phase.isActive : Phase → Bool
  | .draining | .calling _ => true
  | _ => false

section Behind
variable {decode} {maxFrameBytes}

/-- The framer with the callbacks that were made put back. -/
def Framer.behind (f : Framer) (made : List Callback) : Framer := { f with queue := made ++ f.queue }

def Reading.behind (r : Reading) (made : List Callback) : Reading :=
  { r with framer := r.framer.behind made }

theorem frameBuffer_behind (f : Framer) (made : List Callback) (buffer : Bytes) :
    (f.behind made).frameBuffer decode buffer = (f.frameBuffer decode buffer).behind made := by
  unfold Framer.frameBuffer
  cases frame decode buffer with
  | ok callbacks => simp [Framer.behind, Reading.behind]
  | error what => rfl

theorem take_behind (r : Reading) (made : List Callback) (data : Bytes) (newline : Bool) :
    (r.behind made).take decode maxFrameBytes data newline =
      (r.take decode maxFrameBytes data newline).behind made := by
  have hframer (f : Framer) : (f.behind made).take decode maxFrameBytes data newline =
      (f.take decode maxFrameBytes data newline).behind made := by
    obtain ⟨buffer, discarding, queue⟩ := f
    cases discarding with
    | true => rfl
    | false =>
      by_cases hlong : maxFrameBytes < frameBytes (buffer ++ data)
      · simp [Framer.take, Framer.behind, Reading.behind, hlong]
      · cases newline with
        | false => simp [Framer.take, Framer.behind, Reading.behind, hlong]
        | true =>
          have hbuffer : (Framer.behind ⟨buffer, false, queue⟩ made).frameBuffer decode (buffer ++ data) =
              (Framer.frameBuffer decode ⟨buffer, false, queue⟩ (buffer ++ data)).behind made :=
            frameBuffer_behind _ made (buffer ++ data)
          simpa [Framer.take, Framer.behind, hlong] using hbuffer
  unfold Reading.take
  by_cases hr : r.raised.isSome = true
  · simp [Reading.behind, hr]
  · simp only [Reading.behind, hr, Bool.false_eq_true, if_false]
    exact hframer r.framer

theorem feed_behind (r : Reading) (made : List Callback) (chunk : Bytes) :
    (r.behind made).feed decode maxFrameBytes chunk =
      (r.feed decode maxFrameBytes chunk).behind made := by
  unfold Reading.feed Framing.feed
  induction stretches isNewline chunk generalizing r with
  | nil => rfl
  | cons p rest ih => rw [List.foldl_cons, List.foldl_cons, take_behind, ih]

theorem close_behind (f : Framer) (made : List Callback) :
    (f.behind made).close decode = (f.close decode).behind made := by
  have hbuffer : (f.behind made).frameBuffer decode f.buffer =
      (f.frameBuffer decode f.buffer).behind made := frameBuffer_behind f made f.buffer
  obtain ⟨buffer, discarding, queue⟩ := f
  cases discarding with
  | true => rfl
  | false =>
    by_cases hempty : buffer.isEmpty = true
    · simp [Framer.close, Framer.behind, Reading.behind, hempty]
    · simpa [Framer.close, Framer.behind, hempty] using hbuffer

end Behind

/-- What holds in every state until a section raises what the decoder raised. -/
structure Sound (s : State) : Prop where
  reading : (⟨s.framer, none⟩ : Reading).behind s.log =
    readText decode maxFrameBytes s.received.flatten s.closed
  undisturbed : ∀ what : Str, Phase.raised (.decoder what) ∉ s.calls
  active : s.calls.countP Phase.isActive = s.draining.toNat
  calling : ∀ (i : Nat) (c : Callback), s.calls[i]? = some (.calling c) → s.log.getLast? = some c
  idle : s.draining = false →
    s.framer.queue = [] ∨ ∃ what : Nat, Phase.raised (.callback what) ∈ s.calls

/-- A line that came in made the decoder raise. -/
structure Disturbed (s : State) : Prop where
  reading : (readText decode maxFrameBytes s.received.flatten s.closed).raised.isSome = true
  raised : ∃ what : Str, Phase.raised (.decoder what) ∈ s.calls

section Steps
variable {decode} {maxFrameBytes} {s t : State} {i : Nat} {p q : Phase}

theorem Sound.start : Sound decode maxFrameBytes {} where
  reading := rfl
  undisturbed what h := by cases h
  active := rfl
  calling i c h := by cases h
  idle _ := .inl rfl

theorem getElem?_concat {l : List Phase} (h : (l ++ [p])[i]? = some q) : l[i]? = some q ∨ q = p := by
  rcases Nat.lt_or_ge i l.length with hlt | hge
  · rw [List.getElem?_append_left hlt] at h
    exact .inl h
  · rw [List.getElem?_append_right hge] at h
    exact .inr (List.mem_singleton.mp (List.mem_of_getElem? h))

theorem Sound.ended (hs : Sound decode maxFrameBytes s) (hp : p = .returned ∨ p = .raised .streamClosed) :
    Sound decode maxFrameBytes { s with calls := s.calls ++ [p] } where
  reading := hs.reading
  undisturbed what h := by
    rcases List.mem_append.mp h with h | h
    · exact hs.undisturbed what h
    · obtain rfl := List.mem_singleton.mp h
      rcases hp with hp | hp <;> cases hp
  active := by
    have hzero : [p].countP Phase.isActive = 0 := by rcases hp with rfl | rfl <;> rfl
    rw [List.countP_append, hzero]
    exact hs.active
  calling i c h := by
    rcases getElem?_concat h with h | rfl
    · exact hs.calling i c h
    · rcases hp with hp | hp <;> cases hp
  idle h := (hs.idle h).imp id fun ⟨what, hw⟩ => ⟨what, List.mem_append_left _ hw⟩

theorem Sound.startDrain (hs : Sound decode maxFrameBytes s)
    (hreading : (⟨t.framer, none⟩ : Reading).behind t.log =
      readText decode maxFrameBytes t.received.flatten t.closed)
    (hdraining : t.draining = s.draining) (hcalls : t.calls = s.calls) (hlog : t.log = s.log) :
    Sound decode maxFrameBytes t.startDrain := by
  have hundisturbed : ∀ what : Str, Phase.raised (.decoder what) ∉ t.calls := by
    rw [hcalls]
    exact hs.undisturbed
  have hactive : t.calls.countP Phase.isActive = t.draining.toNat := by
    rw [hcalls, hdraining, hs.active]
  have hcalling : ∀ (i : Nat) (c : Callback), t.calls[i]? = some (.calling c) →
      t.log.getLast? = some c := by
    rw [hcalls, hlog]
    exact hs.calling
  unfold State.startDrain
  split
  · rename_i hcond
    refine Sound.ended ⟨hreading, hundisturbed, hactive, hcalling, fun hd => .inl ?_⟩ (.inl rfl)
    rw [hd] at hcond
    simpa using hcond
  · rename_i hcond
    simp only [Bool.or_eq_true, not_or, Bool.not_eq_true] at hcond
    refine ⟨hreading, fun what h => ?_, ?_, fun i c h => ?_, fun hd => by cases hd⟩
    · rcases List.mem_append.mp h with h | h
      · exact hundisturbed what h
      · cases List.mem_singleton.mp h
    · dsimp only
      rw [List.countP_append, hactive, hcond.1]
      rfl
    · rcases getElem?_concat h with h | h
      · exact hcalling i c h
      · cases h

/-- A section that reads on from a sound state. -/
theorem Sound.settle (hs : Sound decode maxFrameBytes s) {r : Reading}
    (hreading : r.behind s.log = readText decode maxFrameBytes t.received.flatten t.closed)
    (hdraining : t.draining = s.draining) (hcalls : t.calls = s.calls) (hlog : t.log = s.log) :
    Sound decode maxFrameBytes (t.settle r) ∨ Disturbed decode maxFrameBytes (t.settle r) := by
  unfold State.settle
  cases hraised : r.raised with
  | none =>
    refine .inl (hs.startDrain ?_ hdraining hcalls hlog)
    dsimp only
    rw [hlog, ← hreading, Reading.behind, Reading.behind, hraised]
  | some what =>
    refine .inr ⟨?_, what, by simp⟩
    dsimp only
    rw [← hreading, Reading.behind, hraised]
    rfl

theorem Sound.feed (hs : Sound decode maxFrameBytes s) (chunk : Bytes) :
    Sound decode maxFrameBytes (s.feed decode maxFrameBytes chunk) ∨
      Disturbed decode maxFrameBytes (s.feed decode maxFrameBytes chunk) := by
  unfold State.feed
  split
  · exact .inl (hs.ended (.inr rfl))
  · rename_i hopen
    refine hs.settle ?_ rfl rfl rfl
    dsimp only
    rw [← feed_behind, hs.reading, Bool.eq_false_of_not_eq_true hopen, List.flatten_concat,
      readText_append]

theorem Sound.close (hs : Sound decode maxFrameBytes s) :
    Sound decode maxFrameBytes (s.close decode) ∨ Disturbed decode maxFrameBytes (s.close decode) := by
  unfold State.close
  split
  · exact .inl (hs.ended (.inl rfl))
  · rename_i hopen
    refine hs.settle ?_ rfl rfl rfl
    have hreading := hs.reading
    rw [Bool.eq_false_of_not_eq_true hopen] at hreading
    rw [← close_behind, readText_close hreading.symm]

theorem countP_set (hi : s.calls[i]? = some p) (hp : p.isActive = true) (q : Phase) :
    (s.calls.set i q).countP Phase.isActive =
      s.calls.countP Phase.isActive - 1 + q.isActive.toNat := by
  obtain ⟨hlt, rfl⟩ := List.getElem?_eq_some_iff.mp hi
  rw [List.countP_set hlt, if_pos hp]
  cases q.isActive <;> rfl

theorem Sound.only (hs : Sound decode maxFrameBytes s) (hi : s.calls[i]? = some p)
    (hp : p.isActive = true) : s.draining = true ∧ s.calls.countP Phase.isActive = 1 ∧
      ∀ (j : Nat) (q : Phase), s.calls[j]? = some q → q.isActive = true → j = i := by
  have hpos : 0 < s.calls.countP Phase.isActive :=
    List.countP_pos_iff.mpr ⟨p, List.mem_of_getElem? hi, hp⟩
  have hdraining : s.draining = true := by
    by_contra hd
    rw [hs.active, Bool.eq_false_of_not_eq_true hd] at hpos
    exact absurd hpos (by decide)
  have hone : s.calls.countP Phase.isActive = 1 := by rw [hs.active, hdraining]; rfl
  refine ⟨hdraining, hone, fun j q hj hq => ?_⟩
  by_contra hne
  have hrest := countP_set hi hp .returned
  rw [hone] at hrest
  have hmem : q ∈ s.calls.set i .returned :=
    List.mem_iff_getElem?.mpr ⟨j, by rw [List.getElem?_set_ne (Ne.symm hne), hj]⟩
  have := List.countP_pos_iff.mpr ⟨q, hmem, hq⟩
  rw [hrest] at this
  exact absurd this (by decide)

theorem getElem?_set_cases {l : List Phase} {j : Nat} (h : (l.set i q)[j]? = some p) :
    j = i ∧ p = q ∨ j ≠ i ∧ l[j]? = some p := by
  by_cases hij : i = j
  · subst hij
    have hlt : i < (l.set i q).length := (List.getElem?_eq_some_iff.mp h).1
    rw [List.length_set] at hlt
    rw [List.getElem?_set_self hlt] at h
    exact .inl ⟨rfl, (Option.some.inj h).symm⟩
  · rw [List.getElem?_set_ne hij] at h
    exact .inr ⟨Ne.symm hij, h⟩

theorem raised_set {e : Failure} (hi : s.calls[i]? = some p) (hp : p.isActive = true)
    (h : Phase.raised e ∈ s.calls) : Phase.raised e ∈ s.calls.set i q := by
  obtain ⟨j, hj⟩ := List.mem_iff_getElem?.mp h
  have hij : i ≠ j := by
    rintro rfl
    rw [hi] at hj
    cases hj
    cases hp
  exact List.mem_iff_getElem?.mpr ⟨j, by rw [List.getElem?_set_ne hij, hj]⟩

theorem undisturbed_set (hs : Sound decode maxFrameBytes s)
    (hq : ∀ what : Str, q ≠ .raised (.decoder what)) (what : Str) :
    Phase.raised (.decoder what) ∉ s.calls.set i q := by
  intro h
  rcases List.mem_or_eq_of_mem_set h with h | h
  · exact hs.undisturbed what h
  · exact hq what h.symm

theorem Sound.next (hs : Sound decode maxFrameBytes s) (hi : s.calls[i]? = some .draining) :
    Sound decode maxFrameBytes (s.next i) := by
  obtain ⟨hdraining, hone, honly⟩ := hs.only hi rfl
  unfold State.next
  split
  · rename_i hqueue
    refine ⟨hs.reading, undisturbed_set hs (by rintro what ⟨⟩), ?_, fun j c h => ?_,
      fun _ => .inl hqueue⟩
    · dsimp only
      rw [countP_set hi rfl, hone]
      rfl
    · rcases getElem?_set_cases h with ⟨-, h⟩ | ⟨-, h⟩
      · cases h
      · exact hs.calling j c h
  · rename_i c rest hqueue
    refine ⟨?_, undisturbed_set hs (by rintro what ⟨⟩), ?_, fun j d h => ?_, fun hd => ?_⟩
    · rw [← hs.reading]
      simp [Reading.behind, Framer.behind, hqueue]
    · dsimp only
      rw [countP_set hi rfl, hone, hdraining]
      rfl
    · dsimp only
      rw [List.getLast?_concat]
      rcases getElem?_set_cases h with ⟨-, h⟩ | ⟨hj, h⟩
      · cases h
        rfl
      · exact absurd (honly j _ h rfl) hj
    · rw [hdraining] at hd
      cases hd

theorem Sound.back {c : Callback} (hs : Sound decode maxFrameBytes s)
    (hi : s.calls[i]? = some (.calling c)) (raised : Option Nat) :
    Sound decode maxFrameBytes (s.back i raised) := by
  obtain ⟨hdraining, hone, -⟩ := hs.only hi rfl
  have hcalling : ∀ {q : Phase}, (∀ d : Callback, q ≠ .calling d) → ∀ (j : Nat) (d : Callback),
      (s.calls.set i q)[j]? = some (.calling d) → s.log.getLast? = some d := by
    intro q hq j d h
    rcases getElem?_set_cases h with ⟨-, h⟩ | ⟨-, h⟩
    · exact absurd h.symm (hq d)
    · exact hs.calling j d h
  cases raised with
  | none =>
    refine ⟨hs.reading, undisturbed_set hs (by rintro what ⟨⟩), ?_, hcalling (by rintro d ⟨⟩),
      fun hd => ?_⟩
    · dsimp only [State.back]
      rw [countP_set hi rfl, hone, hdraining]
      rfl
    · rw [State.back, hdraining] at hd
      cases hd
  | some what =>
    refine ⟨hs.reading, undisturbed_set hs (by rintro what ⟨⟩), ?_, hcalling (by rintro d ⟨⟩),
      fun _ => .inr ⟨what, ?_⟩⟩
    · dsimp only [State.back]
      rw [countP_set hi rfl, hone]
      rfl
    · obtain ⟨hlt, -⟩ := List.getElem?_eq_some_iff.mp hi
      exact List.mem_iff_getElem?.mpr ⟨i, List.getElem?_set_self hlt⟩

theorem Sound.step (hs : Sound decode maxFrameBytes s) {a : Action}
    (h : s.step decode maxFrameBytes a = some t) :
    Sound decode maxFrameBytes t ∨ Disturbed decode maxFrameBytes t := by
  cases a with
  | feed chunk =>
    cases h
    exact hs.feed chunk
  | close =>
    cases h
    exact hs.close
  | next i =>
    obtain ⟨p, hi, h⟩ := Option.bind_eq_some_iff.mp h
    cases p with
    | draining =>
      cases h
      exact .inl (hs.next hi)
    | calling c => cases h
    | returned => cases h
    | raised e => cases h
  | back i raised =>
    obtain ⟨p, hi, h⟩ := Option.bind_eq_some_iff.mp h
    cases p with
    | calling c =>
      cases h
      exact .inl (hs.back hi raised)
    | draining => cases h
    | returned => cases h
    | raised e => cases h

theorem settle_spec (s : State) (r : Reading) : (s.settle r).received = s.received ∧
    (s.settle r).closed = s.closed ∧ ∀ p ∈ s.calls, p ∈ (s.settle r).calls := by
  unfold State.settle State.startDrain
  cases r.raised with
  | some what => exact ⟨rfl, rfl, fun p hp => List.mem_append_left _ hp⟩
  | none =>
    dsimp only
    split
    · exact ⟨rfl, rfl, fun p hp => List.mem_append_left _ hp⟩
    · exact ⟨rfl, rfl, fun p hp => List.mem_append_left _ hp⟩

theorem Disturbed.feed (hs : Disturbed decode maxFrameBytes s) (chunk : Bytes) :
    Disturbed decode maxFrameBytes (s.feed decode maxFrameBytes chunk) := by
  obtain ⟨hreading, what, hraised⟩ := hs
  unfold State.feed
  split
  · exact ⟨hreading, what, List.mem_append_left _ hraised⟩
  · rename_i hopen
    obtain ⟨hreceived, hclosed, hcalls⟩ := settle_spec { s with received := s.received ++ [chunk] }
      (Reading.feed decode maxFrameBytes ⟨s.framer, none⟩ chunk)
    refine ⟨?_, what, hcalls _ hraised⟩
    rw [Bool.eq_false_of_not_eq_true hopen] at hreading
    rw [hreceived, hclosed, Bool.eq_false_of_not_eq_true hopen, List.flatten_concat, readText_append,
      feed_raised hreading]
    exact hreading

theorem Disturbed.close (hs : Disturbed decode maxFrameBytes s) :
    Disturbed decode maxFrameBytes (s.close decode) := by
  obtain ⟨hreading, what, hraised⟩ := hs
  unfold State.close
  split
  · exact ⟨hreading, what, List.mem_append_left _ hraised⟩
  · rename_i hopen
    obtain ⟨hreceived, hclosed, hcalls⟩ := settle_spec { s with closed := true } (s.framer.close decode)
    refine ⟨?_, what, hcalls _ hraised⟩
    rw [Bool.eq_false_of_not_eq_true hopen] at hreading
    obtain ⟨line, hmem, hline⟩ := readText_raised_iff.mp hreading
    rw [hreceived, hclosed]
    exact readText_raised hmem hline true

theorem Disturbed.step (hs : Disturbed decode maxFrameBytes s) {a : Action}
    (h : s.step decode maxFrameBytes a = some t) : Disturbed decode maxFrameBytes t := by
  obtain ⟨hreading, what, hraised⟩ := id hs
  cases a with
  | feed chunk =>
    cases h
    exact hs.feed chunk
  | close =>
    cases h
    exact hs.close
  | next i =>
    obtain ⟨p, hi, h⟩ := Option.bind_eq_some_iff.mp h
    cases p with
    | draining =>
      cases h
      unfold State.next
      split
      · exact ⟨hreading, what, raised_set hi rfl hraised⟩
      · exact ⟨hreading, what, raised_set hi rfl hraised⟩
    | calling c => cases h
    | returned => cases h
    | raised e => cases h
  | back i raised =>
    obtain ⟨p, hi, h⟩ := Option.bind_eq_some_iff.mp h
    cases p with
    | calling c =>
      cases h
      cases raised with
      | none => exact ⟨hreading, what, raised_set hi rfl hraised⟩
      | some _ => exact ⟨hreading, what, raised_set hi rfl hraised⟩
    | draining => cases h
    | returned => cases h
    | raised e => cases h

theorem run_sound (hs : Sound decode maxFrameBytes s ∨ Disturbed decode maxFrameBytes s)
    (as : List Action) : Sound decode maxFrameBytes (run decode maxFrameBytes s as) ∨
      Disturbed decode maxFrameBytes (run decode maxFrameBytes s as) := by
  induction as generalizing s with
  | nil => exact hs
  | cons a as ih =>
    cases h : s.step decode maxFrameBytes a with
    | none =>
      rw [JsonlStream.run, h]
      exact ih hs
    | some t =>
      rw [JsonlStream.run, h]
      exact ih (hs.elim (fun hs => hs.step h) fun hs => .inr (hs.step h))

end Steps

/-- The callbacks are those of the lines that came in, in their order, each made once and one at a
time, and what is kept for an unfinished line is bounded. -/
structure Delivers (s : State) : Prop where
  order : s.log ++ s.framer.queue = script decode maxFrameBytes s.received.flatten s.closed
  serial : s.calls.countP Phase.isActive ≤ 1
  calling : ∀ (i : Nat) (c : Callback), s.calls[i]? = some (.calling c) → s.log.getLast? = some c
  complete : (∀ p ∈ s.calls, p = .returned ∨ p = .raised .streamClosed) →
    s.log = script decode maxFrameBytes s.received.flatten s.closed
  bounded : s.framer.buffer.length ≤ maxFrameBytes + 1

section Delivery
variable {decode} {maxFrameBytes} {text : Bytes} {closed : Bool}

theorem readText_queue (h : (readText decode maxFrameBytes text closed).raised.isSome = false) :
    (readText decode maxFrameBytes text closed).framer.queue =
        script decode maxFrameBytes text closed ∧
      (readText decode maxFrameBytes text closed).framer.buffer.length ≤ maxFrameBytes + 1 := by
  have hsettled : ∀ line ∈ framed text closed, lineRaises decode maxFrameBytes line = none := by
    intro line hmem
    by_contra hline
    rw [readText_raised_iff.mpr ⟨line, hmem, hline⟩] at h
    cases h
  cases closed with
  | true =>
    rw [close_eq hsettled]
    exact ⟨rfl, Nat.zero_le _⟩
  | false =>
    rw [readText_eq hsettled]
    refine ⟨rfl, ?_⟩
    have hle := le_frameBytes ((lines text).getLastD [])
    by_cases hlong : maxFrameBytes < frameBytes ((lines text).getLastD [])
    · simp only [hlong, decide_true, if_true]
      exact Nat.zero_le _
    · simp only [hlong, decide_false, Bool.false_eq_true, if_false]
      omega

end Delivery

theorem Sound.delivers {s : State} (hs : Sound decode maxFrameBytes s) :
    Delivers decode maxFrameBytes s := by
  have hraised : (readText decode maxFrameBytes s.received.flatten s.closed).raised.isSome = false := by
    rw [← hs.reading]
    rfl
  obtain ⟨hqueue, hbuffer⟩ := readText_queue hraised
  rw [← hs.reading] at hqueue hbuffer
  have horder : s.log ++ s.framer.queue = script decode maxFrameBytes s.received.flatten s.closed := hqueue
  refine ⟨horder, ?_, hs.calling, fun h => ?_, hbuffer⟩
  · rw [hs.active]
    exact Bool.toNat_le _
  · have hnone : s.calls.countP Phase.isActive = 0 := by
      rw [List.countP_eq_zero]
      intro p hp
      rcases h p hp with rfl | rfl <;> decide
    have hdraining : s.draining = false := by
      rw [hs.active] at hnone
      cases hd : s.draining
      · rfl
      · rw [hd] at hnone
        cases hnone
    rcases hs.idle hdraining with hqueue | ⟨what, hw⟩
    · rwa [hqueue, List.append_nil] at horder
    · rcases h _ hw with h | h <;> cases h

/-- Any order of calls, cuts of the stream and callbacks, which may call the stream again or raise: the
stream delivers until a line comes in on which the decoder raises what the stream does not catch, and
then a call raises that. -/
theorem run_delivers (as : List Action) :
    ((∃ line ∈ framed (run decode maxFrameBytes {} as).received.flatten
        (run decode maxFrameBytes {} as).closed, lineRaises decode maxFrameBytes line ≠ none) ↔
      ∃ what : Str, Phase.raised (.decoder what) ∈ (run decode maxFrameBytes {} as).calls) ∧
    ((∀ what : Str, Phase.raised (.decoder what) ∉ (run decode maxFrameBytes {} as).calls) →
      Delivers decode maxFrameBytes (run decode maxFrameBytes {} as)) := by
  rw [← readText_raised_iff]
  rcases run_sound (.inl Sound.start) as with hs | hs
  · refine ⟨iff_of_false ?_ fun ⟨what, h⟩ => hs.undisturbed what h, fun _ => hs.delivers⟩
    rw [← hs.reading]
    exact Bool.false_ne_true
  · exact ⟨iff_of_true hs.reading hs.raised, fun h => hs.raised.elim fun what hw => absurd hw (h what)⟩

end Round5.JsonlStream
